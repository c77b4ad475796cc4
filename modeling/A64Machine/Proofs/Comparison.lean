import A64Machine.Proofs.RelativeTarget
import A64Machine.Proofs.SecondOperand

/-!
# Comparisons and conditional branches

A comparison combines a register with a second operand and leaves nothing but flags. The conditions
of later branches read these flags, and what they tell about the two numbers is stated here name by
name, with unsigned and signed relations and without flags. A branch is taken in every state that has
the flags of the comparison, wherever it stands.
-/

namespace A64Machine

open Bits

/-- The instructions that combine a register with a second operand for the flags alone. -/
inductive Comparison where
  | cmp | cmn | tst
  deriving DecidableEq, Repr

namespace Comparison

def all : List Comparison := [.cmp, .cmn, .tst]

def name : Comparison → String
  | .cmp => "cmp"
  | .cmn => "cmn"
  | .tst => "tst"

/-- The kinds of the second operand. -/
def kinds : Comparison → List OperandKind
  | .cmp | .cmn => InstructionSet.sumKinds
  | .tst => InstructionSet.logicKinds

/-- What conditions tell about two numbers of some size, with the names of the conditions. -/
def relations (comparison : Comparison) (size x y : Nat) : List (List String × Prop) :=
  match comparison with
  | .cmp =>
    [(["eq"], x = y), (["ne"], x ≠ y),
      (["hs", "cs"], y ≤ x), (["lo", "cc"], x < y),
      (["mi"], (wrap size (x - y)).testBit (size - 1) = true),
      (["pl"], (wrap size (x - y)).testBit (size - 1) = false),
      (["vs"], ¬IsSigned size (signExtend x size - signExtend y size)),
      (["vc"], IsSigned size (signExtend x size - signExtend y size)),
      (["hi"], y < x), (["ls"], x ≤ y),
      (["ge"], signExtend y size ≤ signExtend x size),
      (["lt"], signExtend x size < signExtend y size),
      (["gt"], signExtend y size < signExtend x size),
      (["le"], signExtend x size ≤ signExtend y size),
      (["al"], True), (["nv"], True)]
  | .cmn =>
    [(["eq"], (x + y) % 2 ^ size = 0), (["ne"], (x + y) % 2 ^ size ≠ 0),
      (["hs", "cs"], 2 ^ size ≤ x + y), (["lo", "cc"], x + y < 2 ^ size),
      (["mi"], ((x + y) % 2 ^ size).testBit (size - 1) = true),
      (["pl"], ((x + y) % 2 ^ size).testBit (size - 1) = false),
      (["vs"], ¬IsSigned size (signExtend x size + signExtend y size)),
      (["vc"], IsSigned size (signExtend x size + signExtend y size)),
      (["al"], True), (["nv"], True)]
  | .tst =>
    [(["eq"], x &&& y = 0), (["ne"], x &&& y ≠ 0),
      (["hs", "cs"], False), (["lo", "cc"], True),
      (["mi"], (x &&& y).testBit (size - 1) = true),
      (["pl"], (x &&& y).testBit (size - 1) = false),
      (["vs"], False), (["vc"], True),
      (["al"], True), (["nv"], True)]

end Comparison

/-! ### Flags -/

namespace Flags

open InstructionSet (conditionCodes)

/-- The flags tell relations by the conditions that hold for them. -/
def Tells (flags : Flags) (relations : List (List String × Prop)) : Prop :=
  ∀ relation ∈ relations, ∀ name ∈ relation.1, ∃ code, (name, code) ∈ conditionCodes ∧
    (flags.holds code = true ↔ relation.2)

variable {flags : Flags} {relations : List (List String × Prop)} {names names' : List String}
  {relation relation' : Prop}

/-- A condition tells a relation. -/
theorem Tells.cons (code : Nat) (named : ∀ name ∈ names, (name, code) ∈ conditionCodes)
    (means : flags.holds code = true ↔ relation) (rest : flags.Tells relations) :
    flags.Tells ((names, relation) :: relations) :=
  List.forall_mem_cons.mpr ⟨fun name inside => ⟨code, named name inside, means⟩, rest⟩

/-- The conditions come in pairs, of which one holds when the other one does not. -/
theorem Tells.pair (code : Nat) (even : code % 2 = 0 ∧ code < 14)
    (named : ∀ name ∈ names, (name, code) ∈ conditionCodes)
    (named' : ∀ name ∈ names', (name, code + 1) ∈ conditionCodes)
    (means : flags.holds code = true ↔ relation) (opposite : relation' ↔ ¬relation)
    (rest : flags.Tells relations) :
    flags.Tells ((names, relation) :: (names', relation') :: relations) := by
  have negated : flags.holds (code + 1) = !flags.holds code := by
    have half : (code + 1) / 2 = code / 2 := by omega
    have odd : (code + 1) % 2 = 1 ∧ code + 1 ≠ 15 := by omega
    have upright : ¬(code % 2 = 1 ∧ code ≠ 15) := by omega
    simp only [holds, half, if_pos odd, if_neg upright]
  refine .cons code named means (.cons (code + 1) named' ?_ rest)
  rw [negated, opposite, ← means, Bool.not_eq_true', Bool.not_eq_true]

/-- Two conditions always hold. -/
theorem tells_always (flags : Flags) : flags.Tells [(["al"], True), (["nv"], True)] :=
  .cons 14 (by decide) (iff_true_intro rfl) (.cons 15 (by decide) (iff_true_intro rfl)
    (List.forall_mem_nil _))

end Flags

section Tells

variable {size x y result : Nat} {flags : Flags}

/-- The zero flag of a difference says that its numbers are equal. -/
theorem Sums.zero_iff_sub (sums : Sums size x (complement size y) 1 result flags)
    (small : y < 2 ^ size) : result = 0 ↔ x = y := by
  have total := sums.total_sub small
  have fits := sums.small
  cases carries : flags.c <;>
    simp only [carries, Bool.toNat_false, Bool.toNat_true, Bool.not_false, Bool.not_true] at total <;>
    omega

/-- Numbers of some size are equal when their signed readings are. -/
theorem eq_iff_signExtend_eq (left : x < 2 ^ size) (right : y < 2 ^ size) :
    x = y ↔ signExtend x size = signExtend y size := by
  constructor
  · rintro rfl
    rfl
  · intro same
    rw [← wrap_signExtend left, same, wrap_signExtend right]

/-- The flags of a difference tell how its numbers compare. -/
theorem tells_cmp (positive : 0 < size) (small : y < 2 ^ size)
    (sums : Sums size x (complement size y) 1 result flags) (zero : flags.z = decide (result = 0)) :
    flags.Tells (Comparison.cmp.relations size x y) := by
  have equal : flags.holds 0 = true ↔ x = y := by
    rw [← sums.zero_iff_sub small, ← @decide_eq_true_iff (result = 0), ← zero]
    rfl
  have carry : flags.holds 2 = true ↔ y ≤ x := sums.carry_iff_sub small
  have sign : flags.holds 4 = true ↔ (wrap size (x - y)).testBit (size - 1) = true := by
    rw [← sums.result_eq_sub small, testBit_top positive sums.small]
    exact sums.negative
  have overflow : flags.holds 6 = true ↔ ¬IsSigned size (signExtend x size - signExtend y size) :=
    sums.overflow_iff_sub positive small
  have higher : flags.holds 8 = true ↔ y < x := by
    rw [show flags.holds 8 = (flags.holds 2 && !flags.holds 0) from rfl, Bool.and_eq_true, carry,
      Bool.not_eq_true', ← Bool.not_eq_true, equal]
    omega
  have greaterEqual : flags.holds 10 = true ↔ signExtend y size ≤ signExtend x size := by
    rw [← sums.negative_eq_overflow_iff positive small]
    exact beq_iff_eq
  have greater : flags.holds 12 = true ↔ signExtend y size < signExtend x size := by
    rw [show flags.holds 12 = (flags.holds 10 && !flags.holds 0) from rfl, Bool.and_eq_true,
      greaterEqual, Bool.not_eq_true', ← Bool.not_eq_true, equal,
      eq_iff_signExtend_eq sums.left small]
    omega
  exact .pair 0 (by decide) (by decide) (by decide) equal Iff.rfl <|
    .pair 2 (by decide) (by decide) (by decide) carry (by omega) <|
    .pair 4 (by decide) (by decide) (by decide) sign (Bool.not_eq_true _).symm.to_iff <|
    .pair 6 (by decide) (by decide) (by decide) overflow Decidable.not_not.symm <|
    .pair 8 (by decide) (by decide) (by decide) higher (by omega) <|
    .pair 10 (by decide) (by decide) (by decide) greaterEqual (by omega) <|
    .pair 12 (by decide) (by decide) (by decide) greater (by omega) flags.tells_always

/-- The flags of a sum tell whether it is zero or does not fit. -/
theorem tells_cmn (positive : 0 < size) (sums : Sums size x y 0 result flags)
    (zero : flags.z = decide (result = 0)) :
    flags.Tells (Comparison.cmn.relations size x y) := by
  have equal : flags.holds 0 = true ↔ (x + y) % 2 ^ size = 0 := by
    rw [← sums.result_eq, ← @decide_eq_true_iff (result = 0), ← zero]
    rfl
  have carry : flags.holds 2 = true ↔ 2 ^ size ≤ x + y := sums.carry_iff
  have sign : flags.holds 4 = true ↔ ((x + y) % 2 ^ size).testBit (size - 1) = true := by
    rw [← sums.result_eq, testBit_top positive sums.small]
    exact sums.negative
  have overflow : flags.holds 6 = true ↔ ¬IsSigned size (signExtend x size + signExtend y size) :=
    sums.overflow_iff
  exact .pair 0 (by decide) (by decide) (by decide) equal Iff.rfl <|
    .pair 2 (by decide) (by decide) (by decide) carry (by omega) <|
    .pair 4 (by decide) (by decide) (by decide) sign (Bool.not_eq_true _).symm.to_iff <|
    .pair 6 (by decide) (by decide) (by decide) overflow Decidable.not_not.symm flags.tells_always

/-- The flags of a logical result tell whether it is zero and its top bit. -/
theorem tells_tst (positive : 0 < size) (left : x < 2 ^ size) :
    (Flags.ofLogical (x &&& y : Nat) size).Tells (Comparison.tst.relations size x y) := by
  have small : x &&& y < 2 ^ size := Nat.lt_of_le_of_lt Nat.and_le_left left
  have equal : (Flags.ofLogical (x &&& y : Nat) size).holds 0 = true ↔ x &&& y = 0 :=
    decide_eq_true_iff.trans Int.natCast_eq_zero
  have sign : (Flags.ofLogical (x &&& y : Nat) size).holds 4 = true ↔
      (x &&& y).testBit (size - 1) = true := by
    have unit := Nat.two_pow_pos (size - 1)
    rw [testBit_top positive small, ← Nat.one_le_div_iff unit, Nat.one_le_iff_ne_zero]
    refine decide_eq_true_iff.trans (not_congr ?_)
    rw [Int.shiftRight_eq_div_pow, ← Int.natCast_ediv, Int.natCast_eq_zero]
  exact .pair 0 (by decide) (by decide) (by decide) equal Iff.rfl <|
    .pair 2 (by decide) (by decide) (by decide) Bool.false_eq_true.to_iff not_false_iff.symm <|
    .pair 4 (by decide) (by decide) (by decide) sign (Bool.not_eq_true _).symm.to_iff <|
    .pair 6 (by decide) (by decide) (by decide) Bool.false_eq_true.to_iff not_false_iff.symm
      (Flags.tells_always _)

end Tells

/-! ### Forms -/

namespace Comparison

open InstructionSet

/-- The operation of a comparison by the kind of its second operand. -/
def operation : Comparison → OperandKind → Operation
  | .cmp, kind | .cmn, kind => sumOperation kind
  | .tst, kind => logicOperation kind

/-- The codes of a comparison, which leaves no result. -/
def codes (comparison : Comparison) (kind : OperandKind) (wide : Bool) : List (Char × Nat) :=
  ('d', Register.zeroSlot) ::
    match comparison with
    | .cmp => sumCodes true wide
    | .cmn => sumCodes false wide
    | .tst => commonCodes kind wide

/-- The instruction set has the forms of all comparisons. -/
theorem hasForm : ∀ comparison ∈ all, ∀ kind ∈ comparison.kinds,
    HasForm comparison.name (comparison.operation kind) [reg 'n', (kind, own)]
      (comparison.codes kind) := by
  decide +kernel

end Comparison

namespace InstructionSet

open InstructionForm (dataSize)

variable {evaluate : Evaluator} {here target : Int} {n : RegisterOperand} {kind : OperandKind}
  {given : Operand} {value : CoreState → Int} {before : CoreState}

/-- A form that adds or subtracts for the flags alone takes a step that leaves the flags of the sum. -/
theorem HasForm.exists_flags (subtracts : Bool) {mnemonic : String}
    (has : HasForm mnemonic (sumOperation kind) [reg 'n', (kind, own)] fun wide =>
      ('d', Register.zeroSlot) :: sumCodes subtracts wide)
    (plain : n.Plain) (sums : kind ∈ sumKinds)
    (second : SecondOperand evaluate n.register.wide kind given value) (before : CoreState) :
    ∃ after, AssembledStep here evaluate mnemonic [.register n, given] before after ∧
      before.ReceivesSum after ⟨Register.zeroSlot, n.register.wide⟩ (before.contents n.register)
        (addend subtracts (dataSize n.register.wide)
          (wrap (dataSize n.register.wide) (value before))) subtracts.toNat := by
  obtain ⟨fields, sets, distinct, ensures⟩ := second.exists_sum sums
  refine has.exists_step_of_setsAll (.cons (sets_first plain) (.cons sets .nil)) ?_
    fun instruction coded => ?_
  · simpa using (List.nodup_cons.mp distinct).2
  · rw [flag_some] at coded
    have isTarget : instruction.value 'd' = _ := coded.codes ('d', Register.zeroSlot) (by simp)
    have isFirst : instruction.value 'n' = _ := coded.codes ('n', n.register.slot) (by simp)
    have done := ensures before subtracts instruction (coded.mono (by grind))
    refine done.imp fun _ after leaves => ⟨leaves.1, ?_⟩
    have sum := leaves.2
    rwa [isTarget, isFirst] at sum

/-- A comparison keeps registers and memory, and its flags tell how its numbers compare. -/
theorem exists_comparison (comparison : Comparison) (plain : n.Plain)
    (takes : kind ∈ comparison.kinds)
    (second : SecondOperand evaluate n.register.wide kind given value) (before : CoreState) :
    ∃ after, AssembledStep here evaluate comparison.name [.register n, given] before after ∧
      ∃ flags : Flags,
        before.Receives after ⟨Register.zeroSlot, n.register.wide⟩ 0 (.ofFlags flags) ∧
        flags.Tells (comparison.relations (dataSize n.register.wide) (before.contents n.register)
          (wrap (dataSize n.register.wide) (value before))) := by
  have has := Comparison.hasForm comparison (by cases comparison <;> decide) kind takes
  have positive := (dataSize_range n.register.wide).1
  have left := before.contents_lt n.register
  have right := wrap_lt (dataSize n.register.wide) (value before)
  have unresulting {after : CoreState} {result : Int} {status : Status}
      (receives : before.Receives after ⟨Register.zeroSlot, n.register.wide⟩ result status) :
      before.Receives after ⟨Register.zeroSlot, n.register.wide⟩ 0 status :=
    { receives with result := fun general => absurd rfl general }
  cases comparison with
  | cmp =>
    obtain ⟨after, step, result, flags, sums, zero, receives⟩ :=
      HasForm.exists_flags true has plain takes second before
    exact ⟨after, step, flags, unresulting receives, tells_cmp positive right sums zero⟩
  | cmn =>
    obtain ⟨after, step, result, flags, sums, zero, receives⟩ :=
      HasForm.exists_flags false has plain takes second before
    exact ⟨after, step, flags, unresulting receives, tells_cmn positive sums zero⟩
  | tst =>
    obtain ⟨fields, sets, distinct, ensures⟩ := second.exists_common takes
    refine has.exists_step_of_setsAll (.cons (sets_first plain) (.cons sets .nil)) ?_
      fun instruction coded => ?_
    · simpa using (List.nodup_cons.mp distinct).2
    · rw [flag_some] at coded
      have isTarget : instruction.value 'd' = _ :=
        coded.codes ('d', Register.zeroSlot) (by simp [Comparison.codes])
      have isFirst : instruction.value 'n' = _ := coded.codes ('n', n.register.slot) (by simp)
      have done := ensures before instruction (coded.mono (by grind [Comparison.codes]))
      refine done.imp fun _ after leaves => ⟨leaves.1, _, ?_, tells_tst positive left⟩
      have common := leaves.2
      rw [isTarget, isFirst] at common
      exact unresulting common

/-! ### Branches -/

/-- An instruction is assembled at an address and decoded there, and in a state it goes to a target
just if a condition is met. The state stays as it is. -/
def AssembledBranch (here : Int) (evaluate : Evaluator) (mnemonic : String)
    (operands : List Operand) (target : Int) (taken : Prop) (state : CoreState) : Prop :=
  ∃ word instruction branched, Codec.a64.encode mnemonic operands here evaluate = .ok word ∧
    Codec.a64.decode word here = .ok (some instruction) ∧
    state.execute instruction = (.ok branched, state) ∧
    (taken → branched = some (wrap 64 target)) ∧ (¬taken → branched = none)

/-- A branch under a condition goes to a target in reach just if the flags fulfil the condition. -/
theorem assembledBranch_of_holds {stem name : String} {code : Nat} (begins : stem ∈ ["b.", "b"])
    (coded : (name, code) ∈ conditionCodes) {label : ImmediateOperand}
    (isTarget : label.Denotes evaluate target) (reaches : (Reach.words 19).Reaches here target)
    {taken : Prop} {state : CoreState} (holds : state.status.flags.holds code = true ↔ taken) :
    AssembledBranch here evaluate (stem ++ name) [.immediate label] target taken state := by
  obtain ⟨form, member, targeted⟩ := hasTargetForms.conditional _ begins _ coded
  obtain ⟨word, encoded⟩ :=
    (exists_encode_iff member targeted prepared_nil isTarget.plain isTarget.known).mpr reaches
  obtain ⟨instruction, decoded, executes, aimed⟩ := exists_aimed member targeted
    (by rw [targeted.op]; decide) (by decide) prepared_nil isTarget.plain isTarget.known encoded
  have op := executes.op.trans targeted.op
  have offers : instruction.Offers ['c', 'I'] := executes.offers (by rw [targeted.op]; decide)
  have isCode : instruction.value 'c' = code := aimed.codes _ List.mem_cons_self
  have ensured : Execution.Ensures (fun _ => False) (Execution.perform instruction)
      (fun branched after => after = state ∧
        (taken → branched = some (wrap 64 target)) ∧ (¬taken → branched = none)) state := by
    by_cases met : taken
    · simp [Execution.perform, op, Branch.conditional, Branch.relative, offers.present, isCode,
        holds.mpr met, met, aimed.words_target]
    · have fails : state.status.flags.holds code = false :=
        Bool.eq_false_iff.mpr fun held => met (holds.mp held)
      simp [Execution.perform, op, Branch.conditional, offers.present, isCode, fails, met]
  have executed := CoreState.execute_iff.mp ensured
  split at executed
  · rename_i branched after done
    obtain ⟨rfl, outcome⟩ := executed
    exact ⟨word, instruction, branched, encoded, decoded, done, outcome⟩
  · exact executed.elim

/-- After a comparison, each condition makes a branch go to its target just if the relation that it
tells holds of the two numbers, in every state that has the flags of the comparison. -/
theorem exists_step_of_comparison (comparison : Comparison) (plain : n.Plain)
    (takes : kind ∈ comparison.kinds)
    (second : SecondOperand evaluate n.register.wide kind given value) (here : Int)
    (before : CoreState) :
    ∃ after, AssembledStep here evaluate comparison.name [.register n, given] before after ∧
      before.Receives after ⟨Register.zeroSlot, n.register.wide⟩ 0 after.status ∧
      ∀ relation ∈ comparison.relations (dataSize n.register.wide) (before.contents n.register)
          (wrap (dataSize n.register.wide) (value before)),
        ∀ name ∈ relation.1, ∀ stem ∈ ["b.", "b"],
          ∀ (there target : Int) (evaluate' : Evaluator) (label : ImmediateOperand)
            (later : CoreState), label.Denotes evaluate' target →
              (Reach.words 19).Reaches there target → later.status = after.status →
              AssembledBranch there evaluate' (stem ++ name) [.immediate label] target relation.2
                later := by
  obtain ⟨after, step, flags, receives, tells⟩ :=
    @exists_comparison evaluate here n kind given value comparison plain takes second before
  have status := receives.status
  refine ⟨after, step, status ▸ receives, fun relation among name named stem begins there target
    evaluate' label later isTarget reaches same => ?_⟩
  obtain ⟨code, coded, holds⟩ := tells relation among name named
  rw [← show later.status.flags = flags by rw [same, status]; rfl] at holds
  exact assembledBranch_of_holds begins coded isTarget reaches holds

/-- The least number of 32 bits is less than one when it is compared as a signed number. -/
theorem exists_step_of_comparison_least :
    ∃ (list ahead : List Operand) (before after : CoreState),
      Operand.parse "w0, w1" 0 = .ok list ∧ Operand.parse ".+8" 0 = .ok ahead ∧
      before.registers.value 0 = 2 ^ 31 ∧ before.registers.value 1 = 1 ∧
      AssembledStep 0 (Codec.addressOnly 0) "cmp" list before after ∧
      AssembledBranch 4 (Codec.addressOnly 4) "b.lt" ahead 12 True after := by
  let n : RegisterOperand := ⟨"w0", ⟨0, false⟩, none, none, ⟨0, 2⟩⟩
  let m : RegisterOperand := ⟨"w1", ⟨1, false⟩, none, none, ⟨4, 6⟩⟩
  let label : ImmediateOperand :=
    ⟨⟨[⟨.name, ".", ⟨0, 1⟩⟩, ⟨.punct, "+", ⟨1, 2⟩⟩, ⟨.number, "8", ⟨2, 3⟩⟩], ⟨0, 3⟩⟩, none, none, ⟨0, 3⟩⟩
  let before : CoreState :=
    ⟨⟨((Vector.replicate 32 0).set 0 (2 ^ 31)).set 1 1, false, []⟩, .clear, .ofBytes .little #[]⟩
  have plain : n.Plain := RegisterOperand.plain_of_ofName? (by decide) _
  have regular : m.Regular := ⟨by decide, by decide⟩
  have unshifted : Encode.amount (Codec.addressOnly 0) m.amount = .ok (0 : Nat) := rfl
  have second := @SecondOperand.shifted (Codec.addressOnly 0) n.register.wide .lsl .arithmeticShifted
    (.inr ⟨rfl, by decide⟩) m regular rfl rfl 0 unshifted (by decide)
  have isTarget : label.Denotes (Codec.addressOnly 4) 12 :=
    ⟨rfl, toOption_eq_some.mp (by decide +kernel)⟩
  obtain ⟨after, step, _, branches⟩ :=
    exists_step_of_comparison .cmp plain (by decide) second 0 before
  obtain ⟨word, instruction, branched, encoded, decoded, executed, goes, _⟩ :=
    branches _ (List.mem_of_getElem? (i := 11) rfl) "lt" (by decide) "b." (by decide) 4 12 _ label
      after isTarget ⟨rfl, by decide, by decide⟩ rfl
  exact ⟨[.register n, .register m], [.immediate label], before, after,
    toOption_eq_some.mp (by decide +kernel), toOption_eq_some.mp (by decide +kernel),
    by decide +kernel, by decide +kernel, step, word, instruction, branched, encoded, decoded, executed,
    fun _ => goes (by decide +kernel), fun never => absurd trivial never⟩

end InstructionSet

end A64Machine
