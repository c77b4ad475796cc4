import A64Machine.Proofs.AssembledStep
import A64Machine.Proofs.BitOrder

/-!
# Operations on one register

Reversals of bits and bytes, and counts of leading bits. Every word of such an operation names its
registers and its width in the same places, and its code names the operation: the one that reverses
a whole register takes the next code at full width. What the operation leaves is told by the places of
bits and bytes, from which it follows that a reversal undoes itself.
-/

namespace A64Machine

open Bits

/-- The operations on one register. -/
inductive OneSource where
  | rbit
  | rev16 | rev32 | rev
  | clz | cls
  deriving DecidableEq, Repr

namespace OneSource

def all : List OneSource := [.rbit, .rev16, .rev32, .rev, .clz, .cls]

theorem mem_all (kind : OneSource) : kind ∈ all := by
  cases kind <;> decide

def name : OneSource → String
  | .rbit => "rbit"
  | .rev16 => "rev16"
  | .rev32 => "rev32"
  | .rev => "rev"
  | .clz => "clz"
  | .cls => "cls"

theorem name_injective : ∀ kind ∈ all, ∀ other ∈ all, kind.name = other.name → kind = other := by
  decide

/-- The widths of its registers. Only a full register has halves whose bytes are reversed apart. -/
def widths : OneSource → List Bool
  | .rev32 => [true]
  | .rbit | .rev16 | .rev | .clz | .cls => [false, true]

/-- The code of an operation at a width. -/
def code : OneSource → (wide : Bool) → Nat
  | .rbit, _ => 0
  | .rev16, _ => 1
  | .rev32, _ | .rev, false => 2
  | .rev, true => 3
  | .clz, _ => 4
  | .cls, _ => 5

/-- At a width the code names the operation. -/
theorem code_injective : ∀ kind ∈ all, ∀ other ∈ all, ∀ wide ∈ kind.widths, wide ∈ other.widths →
    kind.code wide = other.code wide → kind = other := by
  decide

/-- Whether an operation moves the bits to other places, or else counts some of them. -/
def reverses : OneSource → Bool
  | .rbit | .rev16 | .rev32 | .rev => true
  | .clz | .cls => false

/-- Number of bytes in the groups in which an operation reverses them. -/
def groupBytes (kind : OneSource) (size : Nat) : Nat :=
  match kind with
  | .rev16 => 2
  | .rev32 => 4
  | .rbit | .rev | .clz | .cls => size / 8

/-- A number has the bytes of another one, in the opposite order in every group of some count. -/
def BytesReversed (count size x y : Nat) : Prop :=
  ∀ group < size / (8 * count), ∀ index < count,
    byteAt y (count * group + index) = byteAt x (count * group + (count - 1 - index))

/-- What an operation makes of a number of some size. -/
def Makes (kind : OneSource) (size x y : Nat) : Prop :=
  match kind with
  | .rbit => ∀ bit < size, y.testBit bit = x.testBit (size - 1 - bit)
  | .rev16 | .rev32 | .rev => BytesReversed (kind.groupBytes size) size x y
  | .clz => if x = 0 then y = size else y < size ∧ 2 ^ (size - 1 - y) ≤ x ∧ x < 2 ^ (size - y)
  | .cls => IsLeadingSign size x y ∧ (x = 0 ∨ x = 2 ^ size - 1 → y = size - 1)

/-- The number that an operation computes. -/
def result (kind : OneSource) (size value : Nat) : Nat :=
  match kind with
  | .rbit => reverseBits value size
  | .rev16 | .rev32 | .rev => reverseBytes value size (8 * kind.groupBytes size)
  | .clz => leadingZeros value size
  | .cls => leadingSignBits value size

section Result

open InstructionForm (dataSize)

variable {kind : OneSource} {wide : Bool} (offered : wide ∈ kind.widths)

include offered

/-- The groups of bytes fill the register. -/
theorem groups_fill : 0 < kind.groupBytes (dataSize wide) ∧
    ∃ groups, dataSize wide = 8 * kind.groupBytes (dataSize wide) * groups ∧
      dataSize wide / (8 * kind.groupBytes (dataSize wide)) = groups := by
  refine ⟨?_, _, ?_, rfl⟩ <;> revert offered <;> cases kind <;> cases wide <;> decide

theorem result_lt {value : Nat} (small : value < 2 ^ dataSize wide) :
    kind.result (dataSize wide) value < 2 ^ dataSize wide := by
  have inside : dataSize wide < 2 ^ dataSize wide := Nat.lt_two_pow_self
  obtain ⟨positive, groups, fill, -⟩ := groups_fill offered
  have bytes : reverseBytes value (dataSize wide) (8 * kind.groupBytes (dataSize wide)) <
      2 ^ dataSize wide := by
    have short := reverseBytes_lt positive value groups
    rwa [← fill] at short
  cases kind with
  | rbit => exact reverseBits_lt value _
  | rev16 | rev32 | rev => exact bytes
  | clz => exact Nat.lt_of_le_of_lt (testBit_leadingZeros small).1 inside
  | cls =>
    have count := isLeadingSign_leadingSignBits (InstructionSet.dataSize_range wide).1 value
    exact Nat.lt_trans count.below inside

/-- The number that an operation computes is the one that it is to make. -/
theorem makes_result {value : Nat} (small : value < 2 ^ dataSize wide) :
    kind.Makes (dataSize wide) value (kind.result (dataSize wide) value) := by
  obtain ⟨positive, groups, fill, count⟩ := groups_fill offered
  have bytes : BytesReversed (kind.groupBytes (dataSize wide)) (dataSize wide) value
      (reverseBytes value (dataSize wide) (8 * kind.groupBytes (dataSize wide))) := by
    intro group among index inside
    have reversed := byteAt_reverseBytes positive value groups (count ▸ among) inside
    rwa [← fill] at reversed
  cases kind with
  | rbit => exact fun bit below => testBit_reverseBits value below
  | rev16 | rev32 | rev => exact bytes
  | clz => exact leadingZeros_spec small
  | cls =>
    have sign := isLeadingSign_leadingSignBits (InstructionSet.dataSize_range wide).1 value
    refine ⟨sign, fun equal => ?_⟩
    rcases equal with rfl | rfl
    · exact sign.eq_of_all fun place _ => Nat.zero_testBit place
    · exact sign.eq_of_all fun place below => by
        rw [Nat.testBit_two_pow_sub_one, decide_eq_true below]

/-- A reversal undoes itself. -/
theorem result_result {value : Nat} (small : value < 2 ^ dataSize wide)
    (reversal : kind.reverses = true) :
    kind.result (dataSize wide) (kind.result (dataSize wide) value) = value := by
  obtain ⟨positive, groups, fill, -⟩ := groups_fill offered
  have bytes : reverseBytes
      (reverseBytes value (dataSize wide) (8 * kind.groupBytes (dataSize wide))) (dataSize wide)
      (8 * kind.groupBytes (dataSize wide)) = value := by
    have undone := reverseBytes_reverseBytes positive groups (fill ▸ small)
    rwa [← fill] at undone
  cases kind with
  | rbit => exact reverseBits_reverseBits small
  | rev16 | rev32 | rev => exact bytes
  | clz | cls => contradiction

end Result

/-- The complement has as many leading sign bits. -/
theorem result_cls_complement {size value : Nat} (positive : 0 < size) (small : value < 2 ^ size) :
    cls.result size (2 ^ size - 1 - value) = cls.result size value :=
  (isLeadingSign_leadingSignBits positive _).unique
    ((isLeadingSign_leadingSignBits positive value).complement small)

end OneSource

namespace Execution

open DataProcessing

/-- An operation on one register leaves its number in the destination. -/
theorem ensures_oneSource {instruction : Instruction} {allowed : ExecutionFault → Prop}
    {before : CoreState} {wide : Bool} {kind : OneSource} (offered : wide ∈ kind.widths)
    (offers : instruction.Offers ['n', 'c', 'd']) (op : instruction.form.op = .oneSource)
    (size : dataSize instruction = InstructionForm.dataSize wide)
    (code : instruction.value 'c' = kind.code wide) :
    Ensures allowed (perform instruction)
      (fun branched after => branched = none ∧
        before.Receives after ⟨instruction.value 'd', wide⟩
          (kind.result (InstructionForm.dataSize wide)
            (before.contents ⟨instruction.value 'n', wide⟩) : Nat) before.status) before := by
  have written {registers : RegisterFile}
      (same : ∀ slot : Nat, registers.value slot = before.registers.value slot) :=
    CoreState.receives_of_write wide same (offers.registers 'd' (by decide)) before.status
  cases kind <;> cases wide
  case rev32.false => exact absurd offered (by decide)
  all_goals
    simpa [perform, op, oneSource, offers.present, offers.registers, size, code, OneSource.code,
      OneSource.result, OneSource.groupBytes, CoreState.contents, InstructionForm.dataSize] using
      written (by simp) _

end Execution

/-! ### Words -/

namespace OneSource

/-- The fields of a word of an operation. -/
def fields (kind : OneSource) (wide : Bool) (target source : Nat) : List (Char × Nat) :=
  [('z', wide.toNat), ('c', kind.code wide), ('d', target), ('n', source)]

/-- An instruction is decoded as an operation from a word, which has its width in the highest bit and
its registers in the lowest ones. -/
structure DecodedFrom (kind : OneSource) (word here : Int) (wide : Bool) (target source : Nat)
    (instruction : Instruction) : Prop where
  decoded : Codec.a64.decode word here = .ok (some instruction)
  named : instruction.form.mnemonic = kind.name
  flag : (Instruction.wordBits word).testBit 31 = wide
  target : Instruction.wordBits word % 32 = target
  source : Instruction.wordBits word / 32 % 32 = source

end OneSource

namespace InstructionSet

open BitPattern (positionsOf contiguous gather knownValue)
open InstructionForm (dataSize)

/-- The operands of an operation. -/
def operandsOf (kind : OneSource) : List FormOperand :=
  if kind = .rev32 then [xreg 'd', xreg 'n'] else [reg 'd', reg 'n']

/-- A form of an operation on one register has its name, and the code at the width of its words. -/
theorem kind_of_form : ∀ form ∈ forms, form.op = .oneSource →
    ∃ kind ∈ OneSource.all, form.mnemonic = kind.name ∧ ∀ flag, ∃ wide ∈ kind.widths,
      knownValue form.pattern.template flag (positionsOf 'z' (baseForm form.op)) =
        some wide.toNat ∧
      knownValue form.pattern.template flag (positionsOf 'c' (baseForm form.op)) =
        some (kind.code wide) := by
  decide +kernel

/-- No other operation has one of these names. -/
theorem op_of_name : ∀ kind ∈ OneSource.all, ∀ form ∈ forms, form.mnemonic = kind.name →
    form.op = .oneSource := by
  decide +kernel

theorem eq_of_toNat : ∀ flag other : Bool, flag.toNat = other.toNat → flag = other := by
  decide

/-- The base form reads the width and the registers from their places. -/
theorem gather_oneSource (word : Nat) :
    gather word (positionsOf 'z' (baseForm .oneSource)) = (word.testBit 31).toNat ∧
      gather word (positionsOf 'd' (baseForm .oneSource)) = word % 32 ∧
      gather word (positionsOf 'n' (baseForm .oneSource)) = word / 32 % 32 := by
  have places : positionsOf 'z' (baseForm .oneSource) = contiguous 31 1 ∧
      positionsOf 'd' (baseForm .oneSource) = contiguous 0 5 ∧
      positionsOf 'n' (baseForm .oneSource) = contiguous 5 5 := by decide
  obtain ⟨flag, target, source⟩ := places
  rw [flag, target, source, BitPattern.gather_contiguous, BitPattern.gather_contiguous,
    BitPattern.gather_contiguous, Nat.shiftRight_zero, Nat.shiftRight_eq_div_pow,
    Nat.shiftRight_eq_div_pow, Nat.toNat_testBit]
  exact ⟨rfl, rfl, rfl⟩

/-- An instruction with one register as its source is one of these operations, and its fields are
those of its word. -/
theorem exists_decodedFrom {word here : Int} {instruction : Instruction}
    (decoded : Codec.a64.decode word here = .ok (some instruction))
    (op : instruction.form.op = .oneSource) :
    ∃ kind : OneSource, ∃ wide ∈ kind.widths, ∃ target source,
      kind.DecodedFrom word here wide target source instruction ∧
      Coded instruction .oneSource (kind.fields wide target source) := by
  obtain ⟨executes, -⟩ := executes_of_decode decoded
  obtain ⟨kind, -, named, codes⟩ := kind_of_form _ executes.member op
  obtain ⟨wide, offered, flag, code⟩ := codes
    (instruction.form.isWide (instruction.form.pattern.decode (Instruction.wordBits word)))
  obtain ⟨placeZ, placeD, placeN⟩ := gather_oneSource (Instruction.wordBits word)
  have value : ∀ letter ∈ ['z', 'c', 'd', 'n'], instruction.value letter =
      gather (Instruction.wordBits word) (positionsOf letter (baseForm .oneSource)) := by
    intro letter present
    have inBase : ∀ letter ∈ ['z', 'c', 'd', 'n'],
        letter ∈ baseForm .oneSource ∧ BitPattern.isLiteral letter = false := by decide
    obtain ⟨among, symbolic⟩ := inBase letter present
    rw [Instruction.value, executes.lookup (op ▸ among) symbolic, op, Option.getD_some]
  have known {positions : List Nat} {value : Nat} :=
    @BitPattern.gather_of_knownValue _ (checked executes.member).wellFormed _ executes.accepted _
      executes.flags positions value
  have isFlag := known flag
  have isCode := known code
  rw [op] at isFlag isCode
  refine ⟨kind, wide, offered, _, _, ⟨decoded, named, ?_, rfl, rfl⟩,
    fun letters present => executes.offers (op ▸ present), op, ?_⟩
  · exact eq_of_toNat _ _ (placeZ.symm.trans isFlag)
  · simp only [OneSource.fields, List.forall_mem_cons]
    exact ⟨(value 'z' (by decide)).trans isFlag, (value 'c' (by decide)).trans isCode,
      (value 'd' (by decide)).trans placeD, (value 'n' (by decide)).trans placeN, by simp⟩

/-- Each operation has a form at each of its widths. -/
theorem hasForm_oneSource : ∀ kind ∈ OneSource.all, ∀ wide ∈ kind.widths,
    HasForm kind.name .oneSource (operandsOf kind) fun flag =>
      [('z', (if kind = .rev32 then wide else flag).toNat),
        ('c', kind.code (if kind = .rev32 then wide else flag))] := by
  decide +kernel

/-- Every register is written by its name. -/
theorem exists_plain {slot : Nat} (named : slot < 32) (wide : Bool) :
    ∃ given : RegisterOperand, given.Plain ∧ given.register = ⟨slot, wide⟩ :=
  ⟨_, RegisterOperand.plain_of_ofName? (Operand.ofName?_name slot named wide) ⟨0, 0⟩, rfl⟩

section Words

variable {kind : OneSource} {wide : Bool} {target source : Nat}

/-- The registers of an operation set their fields. -/
theorem exists_setsAll {evaluate : Evaluator} {d n : RegisterOperand} (plain : d.Plain)
    (plain' : n.Plain) (offered : wide ∈ kind.widths) (same : d.register.wide = wide)
    (same' : n.register.wide = wide) :
    ∃ flag, SetsAll evaluate none flag (operandsOf kind) [.register d, .register n]
        [('d', d.register.slot), ('n', n.register.slot)] ∧
      (if kind = .rev32 then wide else flag != some false) = wide := by
  by_cases full : kind = .rev32
  · subst full
    obtain rfl := List.mem_singleton.mp offered
    exact ⟨none, .cons (sets_wideRegister plain same) (.cons (sets_wideRegister plain' same') .nil),
      rfl⟩
  · subst same
    rw [operandsOf, if_neg full]
    exact ⟨some d.register.wide, .cons (sets_first plain) (.cons (sets_register plain' same') .nil),
      (if_neg full).trans (flag_some _)⟩

/-- At each of its widths an operation has a word for all registers. -/
theorem exists_word_oneSource (offered : wide ∈ kind.widths) (named : target < 32)
    (named' : source < 32) (here : Int) :
    ∃ word instruction, kind.DecodedFrom word here wide target source instruction := by
  obtain ⟨d, plain, isTarget⟩ := exists_plain named wide
  obtain ⟨n, plain', isSource⟩ := exists_plain named' wide
  obtain ⟨flag, sets, width⟩ := @exists_setsAll _ _ (fun _ => .ok 0) _ _ plain plain' offered
    (by rw [isTarget]) (by rw [isSource])
  obtain ⟨word, instruction, -, decoded, coded⟩ :=
    (hasForm_oneSource kind kind.mem_all wide offered).exists_coded sets.regular sets.fits
      fun form => sets.gathered form here .empty rfl
  replace coded := coded _ (sets.known (by simp) _)
  -- the fields of the word tell which operation it is, its width and its registers
  obtain ⟨other, width', offered', target', source', found, coded'⟩ :=
    exists_decodedFrom decoded coded.op
  have fields := coded.codes
  have fields' := coded'.codes
  simp only [width, isTarget, isSource, List.cons_append, List.nil_append, List.forall_mem_cons]
    at fields
  simp only [OneSource.fields, List.forall_mem_cons] at fields'
  obtain ⟨sameTarget, sameSource, sameFlag, sameCode, -⟩ := fields
  obtain ⟨flag', code', target'', source'', -⟩ := fields'
  obtain rfl := eq_of_toNat _ _ (flag'.symm.trans sameFlag)
  obtain rfl := OneSource.code_injective other other.mem_all kind kind.mem_all _ offered' offered
    (code'.symm.trans sameCode)
  obtain rfl := target''.symm.trans sameTarget
  obtain rfl := source''.symm.trans sameSource
  exact ⟨word, instruction, found⟩

/-- A decoded operation has its fields. -/
theorem coded_of_decodedFrom {word here : Int} {instruction : Instruction}
    (isDecoded : kind.DecodedFrom word here wide target source instruction) :
    wide ∈ kind.widths ∧ Coded instruction .oneSource (kind.fields wide target source) := by
  obtain ⟨executes, -⟩ := executes_of_decode isDecoded.decoded
  have op := op_of_name kind kind.mem_all _ executes.member isDecoded.named
  obtain ⟨other, width, offered, first, second, found, coded⟩ :=
    exists_decodedFrom isDecoded.decoded op
  obtain rfl := OneSource.name_injective _ other.mem_all _ kind.mem_all
    (found.named.symm.trans isDecoded.named)
  rw [← isDecoded.flag, ← isDecoded.target, ← isDecoded.source, found.flag, found.target, found.source]
  exact ⟨offered, coded⟩

/-- An operation with its fields leaves its number in its target. -/
theorem Coded.ensures_oneSource {instruction : Instruction}
    (coded : Coded instruction .oneSource (kind.fields wide target source))
    (offered : wide ∈ kind.widths) (before : CoreState) :
    Execution.Ensures (fun _ => False) (Execution.perform instruction)
      (fun branched after => branched = none ∧
        before.Receives after ⟨target, wide⟩
          (kind.result (InstructionForm.dataSize wide) (before.contents ⟨source, wide⟩) : Nat)
          before.status) before := by
  have size : Execution.dataSize instruction = InstructionForm.dataSize wide :=
    coded.dataSize (by simp [OneSource.fields]) (by decide)
  have fields := coded.codes
  simp only [OneSource.fields, List.forall_mem_cons] at fields
  obtain ⟨-, code, rfl, rfl, -⟩ := fields
  exact Execution.ensures_oneSource offered (coded.offers _ (by decide)) coded.op size code

/-- A decoded operation takes every state to one with its number in its target. -/
theorem exists_execute_oneSource {word here : Int} {instruction : Instruction}
    (isDecoded : kind.DecodedFrom word here wide target source instruction) (before : CoreState) :
    ∃ after, before.execute instruction = (.ok none, after) ∧
      before.Receives after ⟨target, wide⟩
        (kind.result (dataSize wide) (before.contents ⟨source, wide⟩) : Nat) before.status := by
  obtain ⟨offered, coded⟩ := coded_of_decodedFrom isDecoded
  exact CoreState.exists_execute (coded.ensures_oneSource offered before)

end Words

/-- The words of each operation on one register compute a function of the numbers of their width, for
all registers and in every state, and leave everything else. The function is what the operation is to
make. A reversal undoes itself, and leading sign bits are counted alike for a number and for its
complement. -/
theorem execute_oneSource (kind : OneSource) :
    (∀ wide word here target source instruction,
      kind.DecodedFrom word here wide target source instruction → wide ∈ kind.widths) ∧
    ∀ wide ∈ kind.widths, ∃ function : Nat → Nat,
      (∀ target < 32, ∀ source < 32, ∀ here, ∃ word instruction,
        kind.DecodedFrom word here wide target source instruction) ∧
      (∀ word here target source instruction,
        kind.DecodedFrom word here wide target source instruction → ∀ before : CoreState,
          ∃ after, before.execute instruction = (.ok none, after) ∧
            before.Receives after ⟨target, wide⟩
              (function (before.contents ⟨source, wide⟩) : Nat) before.status) ∧
      ∀ x < 2 ^ dataSize wide,
        function x < 2 ^ dataSize wide ∧ kind.Makes (dataSize wide) x (function x) ∧
          (kind.reverses = true → function (function x) = x) ∧
          (kind = .cls → function (2 ^ dataSize wide - 1 - x) = function x) := by
  refine ⟨fun wide word here target source instruction isDecoded =>
    (coded_of_decodedFrom isDecoded).1, fun wide offered => ⟨kind.result (dataSize wide), ?_, ?_, ?_⟩⟩
  · exact fun target named source named' here => exists_word_oneSource offered named named' here
  · exact fun word here target source instruction isDecoded before =>
      exists_execute_oneSource isDecoded before
  · refine fun x small => ⟨OneSource.result_lt offered small, OneSource.makes_result offered small,
      OneSource.result_result offered small, ?_⟩
    rintro rfl
    exact OneSource.result_cls_complement (dataSize_range wide).1 small

/-- A `rev` from `x1` to `x0` reverses all eight bytes, and one back to `x1` restores them. -/
theorem execute_oneSource_rev :
    ∃ (forth back : Instruction) (before middle after : CoreState),
      (∃ word, OneSource.rev.DecodedFrom word 0 true 0 1 forth) ∧
      (∃ word, OneSource.rev.DecodedFrom word 4 true 1 0 back) ∧
      before.contents ⟨1, true⟩ = 0x0102030405060708 ∧
      before.execute forth = (.ok none, middle) ∧
      middle.contents ⟨0, true⟩ = 0x0807060504030201 ∧
      middle.execute back = (.ok none, after) ∧ after.contents ⟨1, true⟩ = 0x0102030405060708 := by
  let before : CoreState :=
    ⟨⟨(Vector.replicate 32 0).set 1 0x0102030405060708, false, []⟩, .clear, .ofBytes .little #[]⟩
  obtain ⟨function, words, executes, values⟩ :=
    (execute_oneSource .rev).2 true (by decide)
  obtain ⟨word, forth, isForth⟩ := words 0 (by decide) 1 (by decide) 0
  obtain ⟨word', back, isBack⟩ := words 1 (by decide) 0 (by decide) 4
  obtain ⟨middle, executed, received⟩ := executes _ _ _ _ _ isForth before
  obtain ⟨after, executed', received'⟩ := executes _ _ _ _ _ isBack middle
  have start : before.contents ⟨1, true⟩ = 0x0102030405060708 := rfl
  obtain ⟨small, reversed, undone, -⟩ := values 0x0102030405060708 (by decide)
  have bytes : ∀ place < 8, byteAt 0x0102030405060708 (8 * 0 + (8 - 1 - place)) =
      byteAt 0x0807060504030201 place := by decide
  have turned : function 0x0102030405060708 = 0x0807060504030201 := by
    refine @eq_of_byteAt 8 _ _ small (by decide) fun place below => ?_
    have same := reversed 0 (by decide) place below
    rw [show OneSource.rev.groupBytes (dataSize true) = 8 from rfl, bytes place below] at same
    rwa [Nat.mul_zero, Nat.zero_add] at same
  have held := received.contents (by decide)
  rw [start, Bits.wrap_of_lt small, turned] at held
  have held' := received'.contents (by decide)
  rw [held, ← turned, undone rfl, Bits.wrap_of_lt (by decide)] at held'
  exact ⟨forth, back, before, middle, after, ⟨word, isForth⟩, ⟨word', isBack⟩, start, executed, held,
    executed', held'⟩

end InstructionSet

end A64Machine
