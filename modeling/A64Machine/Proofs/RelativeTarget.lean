import A64Machine.Proofs.TargetForms

/-!
# Targets are reached

What an instruction does with its target is described without its word: a branch goes there, a load
reads from there, and an address computation leaves the target or its page in a register. The
assembled and decoded instruction does just that, with the target that was written, wrapped to
64 bits.
-/

namespace A64Machine

/-- What an instruction does with its target: it branches there in some states, loads a number of
bytes into a register, or leaves the address or its page in a register. -/
inductive TargetUse where
  | branch (taken : CoreState → Bool)
  | load (width : Nat) (signed : Bool) (slot : Nat)
  | address (slot : Nat)
  | page (slot : Nat)

namespace TargetUse

/-- What holds of the target of a branch that is taken and of the state behind the instruction. -/
def Completes (use : TargetUse) (target : Int) (before : CoreState) (branched : Option Nat)
    (after : CoreState) : Prop :=
  match use with
  | .branch taken =>
    branched = (if taken before then some (Bits.wrap 64 target) else none) ∧
      after.memory = before.memory
  | .load width signed slot =>
    branched = none ∧ ∃ value,
      before.memory.read (Bits.wrap 64 target) width = .ok (value, after.memory) ∧
        after.registers.value slot =
          RegisterFile.kept slot (if signed then Bits.signExtend value (8 * width) else value)
  | .address slot =>
    branched = none ∧ after.memory = before.memory ∧
      after.registers.value slot = RegisterFile.kept slot target
  | .page slot =>
    branched = none ∧ after.memory = before.memory ∧
      after.registers.value slot = RegisterFile.kept slot (target - target % 4096)

/-- The faults that may come up: only a load may fail, and then the target cannot be read. -/
def Fails (use : TargetUse) (target : Int) (before : CoreState) (fault : ExecutionFault) : Prop :=
  match use with
  | .load width _ _ =>
    ∃ access, before.memory.read (Bits.wrap 64 target) width = .error access ∧
      fault = .memory access
  | .branch _ | .address _ | .page _ => False

end TargetUse

/-- The instructions with a target: their mnemonics, the operands in front of the target, its reach
and what becomes of it. -/
inductive Targeted (evaluate : Evaluator) :
    (mnemonic : String) → (before : List Operand) → Reach → TargetUse → Prop where
  | branch (linked : Bool) :
    Targeted evaluate (if linked then "bl" else "b") [] (.words 26) (.branch fun _ => true)
  | conditional {stem condition : String} {code : Nat} (begins : stem ∈ ["b.", "b"])
      (coded : (condition, code) ∈ InstructionSet.conditionCodes) :
    Targeted evaluate (stem ++ condition) [] (.words 19)
      (.branch fun state => state.status.flags.holds code)
  | compare (negated : Bool) {tested : RegisterOperand} (plain : tested.modifier = none)
      (named : tested.register.slot < 32) :
    Targeted evaluate (if negated then "cbnz" else "cbz") [.register tested] (.words 19)
      (.branch fun state => (state.contents tested.register == 0) != negated)
  | test (set : Bool) {tested : RegisterOperand} (plain : tested.modifier = none)
      (named : tested.register.slot < 32) {bit : ImmediateOperand} (unshifted : bit.modifier = none)
      {position : Nat} (known : evaluate bit.value = .ok (position : Int))
      (inside : position < InstructionForm.dataSize tested.register.wide) :
    Targeted evaluate (if set then "tbnz" else "tbz") [.register tested, .immediate bit] (.words 14)
      (.branch fun state => (state.contents tested.register).testBit position == set)
  | load {loaded : RegisterOperand} (plain : loaded.modifier = none)
      (named : loaded.register.slot < 32) :
    Targeted evaluate "ldr" [.register loaded] (.words 19)
      (.load (if loaded.register.wide then 8 else 4) false loaded.register.slot)
  | loadSigned {loaded : RegisterOperand} (plain : loaded.modifier = none)
      (named : loaded.register.slot < 32) (wide : loaded.register.wide = true) :
    Targeted evaluate "ldrsw" [.register loaded] (.words 19)
      (.load 4 true loaded.register.slot)
  | address {computed : RegisterOperand} (plain : computed.modifier = none)
      (named : computed.register.slot < 32) (wide : computed.register.wide = true) :
    Targeted evaluate "adr" [.register computed] .bytes (.address computed.register.slot)
  | page {computed : RegisterOperand} (plain : computed.modifier = none)
      (named : computed.register.slot < 32) (wide : computed.register.wide = true) :
    Targeted evaluate "adrp" [.register computed] .pages (.page computed.register.slot)

namespace InstructionSet

open Execution

variable {form : InstructionForm} {mnemonic : String} {op : Operation} {front : List FormOperand}
  {reach : Reach} {codes : Bool → List (Char × Nat)} {here target : Int} {evaluate : Evaluator}
  {before : List Operand} {draft : Draft} {given : ImmediateOperand} {word : Nat}
  {instruction : Instruction}

/-- The words that an instruction holds lead to the target. -/
theorem Aimed.words_target {width : Nat}
    (aimed : Aimed instruction front (.words width) codes here target draft) :
    instruction.address + Bits.signExtend (instruction.value 'I') width * 4 = target := by
  have held := aimed.held
  have aligned : (target - here) % 4 = 0 := aimed.reaches.1
  rw [Reach.held, Reach.distance] at held
  rw [held, aimed.address]
  omega

/-- The assembled and decoded instruction does with its target what its execution does for the
fields that hold it. -/
theorem encode_uses {use : TargetUse} (member : form ∈ forms)
    (targeted : TargetForm form mnemonic op front reach codes) (general : op ≠ .bitfield)
    (positive : 0 < reach.width) (prepared : Prepared form here evaluate front before draft)
    (unshifted : given.modifier = none) (known : evaluate given.value = .ok target)
    (uses : ∀ instruction word, Executes instruction form word (draft.wide != some false) →
      instruction.form.op = op → Aimed instruction front reach codes here target draft →
      ∀ state, Ensures (use.Fails target state) (perform instruction) (use.Completes target state)
        state) :
    ((∃ word, Codec.a64.encode mnemonic (before ++ [.immediate given]) here evaluate = .ok word) ↔
      reach.Reaches here target) ∧
    ∀ word, Codec.a64.encode mnemonic (before ++ [.immediate given]) here evaluate = .ok word →
      ∃ instruction, Codec.a64.decode word here = .ok (some instruction) ∧
        ∀ state : CoreState,
          match state.execute instruction with
          | (.ok branched, after) => use.Completes target state branched after
          | (.error fault, _) => use.Fails target state fault := by
  refine ⟨exists_encode_iff member targeted prepared unshifted known, fun word encoded => ?_⟩
  obtain ⟨instruction, decoded, executes, aimed⟩ := exists_aimed member targeted
    (by rw [targeted.op]; exact general) positive prepared unshifted known encoded
  refine ⟨instruction, decoded, fun state => ?_⟩
  exact CoreState.execute_iff.mp
    (uses instruction word executes (executes.op.trans targeted.op) aimed state)

section Uses

variable {wide : Bool} {allowed : ExecutionFault → Prop} {state : CoreState}

/-- A branch goes to its target. -/
theorem uses_branch (executes : Executes instruction form word wide)
    (op : instruction.form.op = .branchImmediate)
    (aimed : Aimed instruction front (.words 26) codes here target draft) :
    Ensures allowed (perform instruction)
      (TargetUse.Completes (.branch fun _ => true) target state) state := by
  have offers : instruction.Offers ['p', 'I'] :=
    executes.offers (by rw [← executes.op, op]; decide)
  simp [perform, op, Branch.immediate, Branch.relative, ensures_link, offers.present,
    TargetUse.Completes, aimed.words_target]

/-- A branch under a condition goes to its target when the condition of its code holds. -/
theorem uses_conditional {code : Nat} (executes : Executes instruction form word wide)
    (op : instruction.form.op = .branchConditional)
    (aimed : Aimed instruction front (.words 19) (fun _ => [('c', code)]) here target draft) :
    Ensures allowed (perform instruction)
      (TargetUse.Completes (.branch fun state => state.status.flags.holds code) target state)
      state := by
  have offers : instruction.Offers ['c', 'I'] :=
    executes.offers (by rw [← executes.op, op]; decide)
  have known : instruction.value 'c' = code := aimed.codes _ List.mem_cons_self
  simp [perform, op, Branch.conditional, Branch.relative, offers.present, TargetUse.Completes,
    aimed.words_target, known]

/-- A field that the operands in front of a target have set. -/
theorem Aimed.lookup_front (aimed : Aimed instruction front reach codes here target draft)
    {letter : Char} {value : Nat} (offers : instruction.Offers [letter])
    {operand : FormOperand} (ahead : operand ∈ front) (sets : letter ∈ operand.1.letters operand.2)
    (set : draft.values.lookup letter = some (value : Int)) :
    instruction.fields.lookup letter = some value := by
  have given := aimed.front operand ahead letter sets
  rw [set, Option.some.injEq, Int.natCast_inj] at given
  rw [offers.present letter List.mem_cons_self, given]

/-- A branch on a comparison with zero goes to its target when the register is zero, or when it is
not. -/
theorem uses_compare {negated : Bool} {tested : Register} (named : tested.slot < 32)
    (executes : Executes instruction form word wide)
    (op : instruction.form.op = .compareBranch)
    (aimed : Aimed instruction [reg 't'] (.words 19)
      (fun wide => [('p', negated.toNat), ('z', wide.toNat)]) here target
      ({ Draft.empty with wide := some tested.wide }.set 't' tested.slot)) :
    Ensures allowed (perform instruction)
      (TargetUse.Completes (.branch fun state => (state.contents tested == 0) != negated) target
        state) state := by
  have offers : instruction.Offers ['t', 'p', 'I', 'z'] :=
    executes.offers (by rw [← executes.op, op]; decide)
  have slot : instruction.fields.lookup 't' = some tested.slot :=
    aimed.lookup_front (offers.mono (by decide)) List.mem_cons_self List.mem_cons_self rfl
  have sign : instruction.value 'p' = negated.toNat := aimed.codes _ List.mem_cons_self
  have flag : instruction.value 'z' = tested.wide.toNat := by
    rw [aimed.codes ('z', _) (List.mem_cons_of_mem _ List.mem_cons_self)]
    cases tested.wide <;> rfl
  have size : dataSize instruction = InstructionForm.dataSize tested.wide :=
    Executes.dataSize_of_flag (flag ▸ offers.present 'z' (by decide))
  have negates : (instruction.value 'p' != 0) = negated := by
    rw [sign]
    cases negated <;> rfl
  simp [perform, op, Branch.compare, Branch.relative, offers.present, ensures_readField slot named,
    TargetUse.Completes, aimed.words_target, size, negates, CoreState.contents]

/-- A branch on a bit goes to its target when the bit is set, or when it is clear. -/
theorem uses_test {set : Bool} {tested : Register} {position : Nat} (named : tested.slot < 32)
    (inside : position < InstructionForm.dataSize tested.wide)
    (executes : Executes instruction form word wide)
    (op : instruction.form.op = .testBranch)
    (aimed : Aimed instruction [reg 't', (.bitNumber, own)] (.words 14)
      (fun _ => [('p', set.toNat)]) here target
      (({ Draft.empty with wide := some tested.wide }.set 't' tested.slot).set 'b' position)) :
    Ensures allowed (perform instruction)
      (TargetUse.Completes (.branch fun state => (state.contents tested).testBit position == set)
        target state) state := by
  have offers : instruction.Offers ['t', 'b', 'p', 'I'] :=
    executes.offers (by rw [← executes.op, op]; decide)
  have slot : instruction.fields.lookup 't' = some tested.slot :=
    aimed.lookup_front (offers.mono (by decide)) List.mem_cons_self List.mem_cons_self rfl
  have bit : instruction.fields.lookup 'b' = some position :=
    aimed.lookup_front (offers.mono (by decide)) (List.mem_cons_of_mem _ List.mem_cons_self)
      List.mem_cons_self rfl
  have sign : instruction.value 'p' = set.toNat := aimed.codes _ List.mem_cons_self
  have full : position < 64 := by
    cases wide : tested.wide <;> rw [wide] at inside <;> simp [InstructionForm.dataSize] at inside <;>
      omega
  have tests : ((state.registers.value tested.slot).testBit position).toNat = set.toNat ↔
      (state.contents tested).testBit position = set := by
    simp only [CoreState.contents, Nat.testBit_mod_two_pow, inside, decide_true, Bool.true_and]
    cases (state.registers.value tested.slot).testBit position <;> cases set <;> simp
  simp [perform, op, Branch.test, Branch.relative, offers.present, ensures_readField slot named,
    ensures_field bit, TargetUse.Completes, aimed.words_target, sign, full, tests, -Nat.reducePow]

/-- A transfer that loads from the target reads from there. -/
theorem uses_transfer {bytes slot : Nat} (signed : Bool) (named : slot < 32) :
    Ensures (TargetUse.Fails (.load bytes signed slot) target state)
      (Transfer.transfer (if signed then 2 else 1) bytes (Bits.wrap 64 target) slot)
      (fun _ after => TargetUse.Completes (.load bytes signed slot) target state none after)
      state := by
  rw [ensures_transfer_load (by cases signed <;> decide) named]
  split
  · rename_i value memory read
    refine ⟨rfl, value, read, ?_⟩
    cases signed with
    | false => exact RegisterFile.value_written _ value named
    | true =>
      have once : Bits.wrap 64 (loaded 2 bytes value) =
          Bits.wrap 64 (Bits.signExtend value (8 * bytes)) :=
        Bits.wrap_of_lt (Bits.wrap_lt 64 _)
      show (state.registers.afterWrite slot (Bits.wrap 64 (loaded 2 bytes value))).value slot = _
      rw [once]
      exact RegisterFile.value_written _ _ named
  · rename_i access failed
    exact ⟨access, failed, rfl⟩

/-- A load of a literal reads from its target. -/
theorem uses_literal {register : Register} (named : register.slot < 32)
    (executes : Executes instruction form word wide)
    (op : instruction.form.op = .transferLiteral)
    (aimed : Aimed instruction [reg 't'] (.words 19) (fun wide => [('c', wide.toNat)]) here target
      ({ Draft.empty with wide := some register.wide }.set 't' register.slot)) :
    Ensures
      (TargetUse.Fails (.load (if register.wide then 8 else 4) false register.slot) target state)
      (perform instruction)
      (TargetUse.Completes (.load (if register.wide then 8 else 4) false register.slot) target
        state) state := by
  have offers : instruction.Offers ['c', 'I', 't'] :=
    executes.offers (by rw [← executes.op, op]; decide)
  have slot : instruction.fields.lookup 't' = some register.slot :=
    aimed.lookup_front (offers.mono (by decide)) List.mem_cons_self List.mem_cons_self rfl
  have code : instruction.value 'c' = register.wide.toNat := by
    rw [aimed.codes ('c', _) List.mem_cons_self]
    cases register.wide <;> rfl
  have loads := @uses_transfer target state (if register.wide then 8 else 4) _ false named
  simp only [perform, op, ensures_sequential, Transfer.literal, ensures_bind, ensures_ite,
    ensures_field_offered, offers.present, List.mem_cons, true_or, or_true, code,
    ensures_field slot, aimed.words_target]
  cases wide : register.wide <;> rw [wide] at loads <;> exact loads

/-- A load of a literal with its sign reads from its target. -/
theorem uses_signedLiteral {register : Register} (named : register.slot < 32)
    (executes : Executes instruction form word wide)
    (op : instruction.form.op = .transferLiteral)
    (aimed : Aimed instruction [xreg 't'] (.words 19) (fun _ => [('c', 2)]) here target
      (Draft.empty.set 't' register.slot)) :
    Ensures (TargetUse.Fails (.load 4 true register.slot) target state) (perform instruction)
      (TargetUse.Completes (.load 4 true register.slot) target state) state := by
  have offers : instruction.Offers ['c', 'I', 't'] :=
    executes.offers (by rw [← executes.op, op]; decide)
  have slot : instruction.fields.lookup 't' = some register.slot :=
    aimed.lookup_front (offers.mono (by decide)) List.mem_cons_self List.mem_cons_self rfl
  have code : instruction.value 'c' = 2 := aimed.codes ('c', _) List.mem_cons_self
  simp only [perform, op, ensures_sequential, Transfer.literal, ensures_bind, ensures_ite,
    ensures_field_offered, offers.present, List.mem_cons, true_or, or_true, code,
    ensures_field slot, aimed.words_target, if_true]
  exact uses_transfer true named

/-- An address or a page is left in the register. -/
theorem uses_pcRelative {register : Register} (named : register.slot < 32) (paged : Bool)
    (executes : Executes instruction form word wide)
    (op : instruction.form.op = .pcRelative)
    (aimed : Aimed instruction [xreg 'd'] (if paged then .pages else .bytes)
      (fun _ => [('p', paged.toNat)]) here target (Draft.empty.set 'd' register.slot)) :
    Ensures allowed (perform instruction)
      (TargetUse.Completes (if paged then .page register.slot else .address register.slot) target
        state) state := by
  have offers : instruction.Offers ['I', 'i', 'p', 'd'] :=
    executes.offers (by rw [← executes.op, op]; decide)
  have slot : instruction.fields.lookup 'd' = some register.slot :=
    aimed.lookup_front (offers.mono (by decide)) List.mem_cons_self List.mem_cons_self rfl
  have code : instruction.value 'p' = paged.toNat := aimed.codes ('p', _) List.mem_cons_self
  have held := aimed.held
  simp only [perform, op, ensures_sequential, DataProcessing.pcRelative, ensures_bind,
    ensures_field_offered, offers.present, List.mem_cons, true_or, or_true, code,
    ensures_writeField slot named]
  cases paged with
  | false =>
    have sum : instruction.address + Bits.signExtend
        (instruction.value 'I' <<< 2 ||| instruction.value 'i' : Nat) 21 = target := by
      rw [show Bits.signExtend _ 21 = target - here from held, aimed.address]
      omega
    exact ⟨rfl, rfl, sum ▸ RegisterFile.value_written _ _ named⟩
  | true =>
    have sum : instruction.address - instruction.address % 4096 + Bits.signExtend
        (instruction.value 'I' <<< 2 ||| instruction.value 'i' : Nat) 21 * 4096 =
          target - target % 4096 := by
      rw [show Bits.signExtend _ 21 = target / 4096 - here / 4096 from held, aimed.address]
      omega
    exact ⟨rfl, rfl, sum ▸ RegisterFile.value_written _ _ named⟩

end Uses

/-- A target is encoded exactly when it is in reach, and the decoded instruction does with it what
its mnemonic says. -/
theorem encode_target {use : TargetUse} (targeted : Targeted evaluate mnemonic before reach use)
    (unshifted : given.modifier = none) (known : evaluate given.value = .ok target) (here : Int) :
    ((∃ word, Codec.a64.encode mnemonic (before ++ [.immediate given]) here evaluate = .ok word) ↔
      reach.Reaches here target) ∧
    ∀ word, Codec.a64.encode mnemonic (before ++ [.immediate given]) here evaluate = .ok word →
      ∃ instruction, Codec.a64.decode word here = .ok (some instruction) ∧
        ∀ state : CoreState,
          match state.execute instruction with
          | (.ok branched, after) => use.Completes target state branched after
          | (.error fault, _) => use.Fails target state fault := by
  cases targeted with
  | branch linked =>
    obtain ⟨form, member, isForm⟩ := hasTargetForms.branch linked
    exact encode_uses member isForm (by decide) (by decide) prepared_nil unshifted known
      fun _ _ executes op aimed _ => uses_branch executes op aimed
  | conditional begins coded =>
    obtain ⟨form, member, isForm⟩ := hasTargetForms.conditional _ begins _ coded
    exact encode_uses member isForm (by decide) (by decide) prepared_nil unshifted known
      fun _ _ executes op aimed _ => uses_conditional executes op aimed
  | compare negated plain named =>
    obtain ⟨form, member, isForm⟩ := hasTargetForms.compare negated
    exact encode_uses member isForm (by decide) (by decide) (prepared_register plain named)
      unshifted known fun _ _ executes op aimed _ => uses_compare named executes op aimed
  | test set plain named unshifted' known' inside =>
    obtain ⟨form, member, isForm⟩ := hasTargetForms.test set
    exact encode_uses member isForm (by decide) (by decide)
      (prepared_bitNumber plain named unshifted' known' inside) unshifted known
      fun _ _ executes op aimed _ => uses_test named inside executes op aimed
  | load plain named =>
    obtain ⟨form, member, isForm⟩ := hasTargetForms.load
    exact encode_uses member isForm (by decide) (by decide) (prepared_register plain named)
      unshifted known fun _ _ executes op aimed _ => uses_literal named executes op aimed
  | loadSigned plain named wide =>
    obtain ⟨form, member, isForm⟩ := hasTargetForms.loadSigned
    exact encode_uses member isForm (by decide) (by decide) (prepared_wideRegister plain wide named)
      unshifted known fun _ _ executes op aimed _ => uses_signedLiteral named executes op aimed
  | address plain named wide =>
    obtain ⟨form, member, isForm⟩ := hasTargetForms.address
    exact encode_uses member isForm (by decide) (by decide) (prepared_wideRegister plain wide named)
      unshifted known fun _ _ executes op aimed _ => uses_pcRelative named false executes op aimed
  | page plain named wide =>
    obtain ⟨form, member, isForm⟩ := hasTargetForms.page
    exact encode_uses member isForm (by decide) (by decide) (prepared_wideRegister plain wide named)
      unshifted known fun _ _ executes op aimed _ => uses_pcRelative named true executes op aimed

/-- A comparison of `x3` with zero at address 4096 branches two instructions ahead. -/
theorem encode_target_ahead :
    ∃ operands, Operand.parse "x3, .+8" 0 = .ok operands ∧
      ∃ word, Codec.a64.encode "cbnz" operands 4096 (Codec.addressOnly 4096) = .ok word ∧
        ∃ instruction, Codec.a64.decode word 4096 = .ok (some instruction) ∧
          ∀ state : CoreState,
            match state.execute instruction with
            | (.ok branched, after) =>
              branched = (if (state.contents ⟨3, true⟩ == 0) != true then some 4104 else none) ∧
                after.memory = state.memory
            | (.error _, _) => False := by
  have parsed : (Operand.parse "x3, .+8" 0).toOption = some
      ([.register ⟨"x3", ⟨3, true⟩, none, none, ⟨0, 2⟩⟩] ++
        [.immediate ⟨⟨[⟨.name, ".", ⟨4, 5⟩⟩, ⟨.punct, "+", ⟨5, 6⟩⟩, ⟨.number, "8", ⟨6, 7⟩⟩],
          ⟨4, 7⟩⟩, none, none, ⟨4, 7⟩⟩]) := by
    decide +kernel
  have known : (Codec.addressOnly 4096
      ⟨[⟨.name, ".", ⟨4, 5⟩⟩, ⟨.punct, "+", ⟨5, 6⟩⟩, ⟨.number, "8", ⟨6, 7⟩⟩], ⟨4, 7⟩⟩).toOption =
        some 4104 := by
    decide +kernel
  have targeted := @Targeted.compare (Codec.addressOnly 4096) true
    ⟨"x3", ⟨3, true⟩, none, none, ⟨0, 2⟩⟩ rfl (by decide)
  have known := toOption_eq_some.mp known
  obtain ⟨encodes, uses⟩ := @encode_target _ _ _ _ _ ⟨_, none, none, ⟨4, 7⟩⟩ _ targeted rfl known 4096
  obtain ⟨word, encoded⟩ := encodes.mpr ⟨rfl, by decide, by decide⟩
  exact ⟨_, toOption_eq_some.mp parsed, word, encoded, uses word encoded⟩

end InstructionSet

end A64Machine
