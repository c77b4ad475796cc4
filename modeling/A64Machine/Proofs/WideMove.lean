import A64Machine.Proofs.BitfieldMove

/-!
# Wide moves

A wide move carries sixteen bits and the half-word of the register that they belong to. It loads them
there, loads the complement of that, or replaces the half-word and keeps the others. Its words are
told here by their bits, and every form of the table that accepts such a word executes the same wide
move.

Which words have a form at all is another matter. A half-word of zeros in any other place than the
lowest loads the same number as one in the lowest, and an assembler chooses the lowest, so the forms
named `mov` leave the other ones out. But the condition belongs to the kind of the immediate and not to
the mnemonic, and the forms named `movz`, `movn` and `movk` have immediates of that kind too. So these
words belong to no form.
-/

namespace A64Machine

/-- The wide moves: one loads the complement of a half-word in its place, one loads the half-word, and
one replaces a half-word of the register. -/
inductive WideMove where
  | movn
  | movz
  | movk
  deriving DecidableEq, Repr

namespace WideMove

/-- The code of a wide move. -/
def code : WideMove → Nat
  | .movn => 0
  | .movz => 2
  | .movk => 3

/-- The number that a wide move leaves in a register with some former value. -/
def result (move : WideMove) (former place half : Nat) : Int :=
  match move with
  | .movn => -1 - (half * 2 ^ (16 * place) : Nat)
  | .movz => (half * 2 ^ (16 * place) : Nat)
  | .movk => Bits.withField former (16 * place) 16 half

/-- The word of a wide move of a half-word at a place to a register. -/
def word (move : WideMove) (wide : Bool) (place half slot : Nat) : Nat :=
  wide.toNat * 2 ^ 31 + move.code * 2 ^ 29 + 0b100101 * 2 ^ 23 + place * 2 ^ 21 + half * 2 ^ 5 + slot

end WideMove

/-! ### Execution -/

namespace Bits

/-- A half-word in a place of a register is not cut. -/
theorem shiftLeft_half {half place size : Nat} (small : half < 2 ^ 16) (inside : place < size / 16) :
    shiftLeft half (16 * place) size = half * 2 ^ (16 * place) := by
  have room : 16 + 16 * place ≤ size := by omega
  have short : half * 2 ^ (16 * place) < 2 ^ size := by
    calc half * 2 ^ (16 * place) < 2 ^ 16 * 2 ^ (16 * place) :=
          Nat.mul_lt_mul_of_pos_right small (Nat.two_pow_pos _)
      _ = 2 ^ (16 + 16 * place) := (Nat.pow_add ..).symm
      _ ≤ 2 ^ size := Nat.pow_le_pow_right (by decide) room
  rw [shiftLeft, if_neg (by omega), Nat.shiftLeft_eq, Nat.mod_eq_of_lt short]

/-- A half-word is replaced when its place is cleared and the other one is put there. -/
theorem clear_or_half {former half place : Nat} (small : half < 2 ^ 16) :
    clear former (0xffff * 2 ^ (16 * place)) ||| half * 2 ^ (16 * place) =
      withField former (16 * place) 16 half := by
  have full (bit : Nat) : Nat.testBit 0xffff bit = decide (bit < 16) := testBit_mask 16 bit
  apply Nat.eq_of_testBit_eq
  intro bit
  rw [← Nat.shiftLeft_eq, ← Nat.shiftLeft_eq, Nat.testBit_or, testBit_clear, Nat.testBit_shiftLeft,
    Nat.testBit_shiftLeft, full, testBit_withField]
  by_cases above : 16 * place ≤ bit
  · by_cases below : bit < 16 * place + 16
    · simp [above, below, show bit - 16 * place < 16 by omega]
    · have beyond : half.testBit (bit - 16 * place) = false :=
        Nat.testBit_lt_two_pow (Nat.lt_of_lt_of_le small
          (Nat.pow_le_pow_right (by decide) (show 16 ≤ bit - 16 * place by omega)))
      simp [above, below, beyond, show ¬bit - 16 * place < 16 by omega]
  · simp [above]

end Bits

namespace Execution

open DataProcessing

/-- A wide move leaves its number in its destination. -/
theorem ensures_moveWide {instruction : Instruction} {allowed : ExecutionFault → Prop}
    {before : CoreState} {wide : Bool} (move : WideMove)
    (offers : instruction.Offers ['h', 'j', 'c', 'd']) (op : instruction.form.op = .moveWide)
    (size : dataSize instruction = InstructionForm.dataSize wide)
    (code : instruction.value 'c' = move.code)
    (inside : instruction.value 'h' < InstructionForm.dataSize wide / 16)
    (small : instruction.value 'j' < 2 ^ 16) :
    Ensures allowed (perform instruction)
      (fun branched after => branched = none ∧
        before.Receives after ⟨instruction.value 'd', wide⟩
          (move.result (before.contents ⟨instruction.value 'd', wide⟩) (instruction.value 'h')
            (instruction.value 'j')) before.status) before := by
  have inPlace := Bits.shiftLeft_half small inside
  have ones := Bits.shiftLeft_half (show 0xffff < 2 ^ 16 by decide) inside
  cases move with
  | movn =>
    simpa [perform, op, moveWide, offers.present, offers.registers, size, code, inPlace,
      WideMove.code, WideMove.result] using
      CoreState.receives_of_write wide (by simp) (offers.registers 'd' (by decide)) _ _
  | movz =>
    simpa [perform, op, moveWide, offers.present, offers.registers, size, code, inPlace,
      WideMove.code, WideMove.result] using
      CoreState.receives_of_write wide (by simp) (offers.registers 'd' (by decide)) _ _
  | movk =>
    simpa [perform, op, moveWide, offers.present, offers.registers, size, code, inPlace, ones,
      WideMove.code, WideMove.result, Bits.clear_or_half small, CoreState.contents] using
      CoreState.receives_of_write wide (by simp) (offers.registers 'd' (by decide)) _ _

end Execution

/-! ### Words -/

/-- A pattern whose literals are a run of bits accepts the words with just this run. -/
theorem BitPattern.accepts_of_run {pattern : BitPattern} {start width value word : Nat}
    (places : pattern.literalMask = Bits.mask width <<< start)
    (literals : pattern.literalValue = value <<< start)
    (run : (word >>> start) % 2 ^ width = value) : pattern.accepts word = true := by
  rw [accepts, beq_iff_eq, places, literals, ← run]
  apply Nat.eq_of_testBit_eq
  intro bit
  rw [Nat.testBit_and, Nat.testBit_shiftLeft, Nat.testBit_shiftLeft, Bits.testBit_mask,
    Nat.testBit_mod_two_pow, Nat.testBit_shiftRight]
  by_cases above : start ≤ bit
  · simp [above, Bool.and_comm]
  · simp [above]

namespace InstructionSet

open BitPattern (positionsOf contiguous isLiteral gather)
open InstructionForm (dataSize)

/-- The fields of the word of a wide move. -/
def wideMoveFields (move : WideMove) (wide : Bool) (place half slot : Nat) : List (Char × Nat) :=
  [('z', wide.toNat), ('c', move.code), ('h', place), ('j', half), ('d', slot)]

/-- An instruction with the fields of a wide move leaves its number in the destination. -/
theorem Coded.ensures_wideMove {instruction : Instruction} {codes : List (Char × Nat)}
    (coded : Coded instruction .moveWide codes) (move : WideMove) {wide : Bool}
    {place half slot : Nat} (among : wideMoveFields move wide place half slot ⊆ codes)
    (inside : place < InstructionForm.dataSize wide / 16) (small : half < 2 ^ 16) (before : CoreState) :
    Execution.Ensures (fun _ => False) (Execution.perform instruction)
      (fun branched after => branched = none ∧
        before.Receives after ⟨slot, wide⟩
          (move.result (before.contents ⟨slot, wide⟩) place half) before.status) before := by
  replace coded := coded.mono among
  have size : Execution.dataSize instruction = InstructionForm.dataSize wide :=
    coded.dataSize (by simp [wideMoveFields]) (by decide)
  have known := coded.codes
  simp only [wideMoveFields, List.forall_mem_cons] at known
  obtain ⟨-, code, rfl, rfl, rfl, -⟩ := known
  exact Execution.ensures_moveWide move (coded.offers _ (by decide)) coded.op size code inside small

/-- The forms of wide moves have an immediate of one of two kinds. -/
theorem operands_of_moveWide : ∀ form ∈ forms, form.op = .moveWide →
    ∃ kind ∈ [OperandKind.wide, .invertedWide], form.operands = [reg 'd', (kind, own)] := by
  decide +kernel

/-- Each wide move has a form that takes the half-word as it is. -/
theorem exists_wideMove_form (move : WideMove) : ∃ form ∈ forms, form.op = .moveWide ∧
    form.operands = [reg 'd', (.wide, own)] ∧ form.flagBits = [31] ∧
    form.pattern.literalMask = Bits.mask 8 <<< 23 ∧
    form.pattern.literalValue = (move.code * 2 ^ 6 + 0b100101) <<< 23 := by
  cases move <;> decide +kernel

section Words

variable (move : WideMove) (wide : Bool) {place half slot : Nat}
  (inside : place < dataSize wide / 16) (small : half < 2 ^ 16) (named : slot < 32)

include inside small named

/-- The base form of wide moves finds the fields of a word. -/
theorem gather_wideMove : move.word wide place half slot < 2 ^ 32 ∧
    (move.word wide place half slot >>> 23) % 2 ^ 8 = move.code * 2 ^ 6 + 0b100101 ∧
    ∀ field ∈ wideMoveFields move wide place half slot,
      field.1 ∈ baseForm .moveWide ∧ isLiteral field.1 = false ∧
      gather (move.word wide place half slot) (positionsOf field.1 (baseForm .moveWide)) =
        field.2 := by
  have most : move.code < 4 := by cases move <;> decide
  have four : place < 4 := by
    have := (dataSize_range wide).2
    omega
  have single := Bool.toNat_le wide
  have runs : positionsOf 'z' (baseForm .moveWide) = contiguous 31 1 ∧
      positionsOf 'c' (baseForm .moveWide) = contiguous 29 2 ∧
      positionsOf 'h' (baseForm .moveWide) = contiguous 21 2 ∧
      positionsOf 'j' (baseForm .moveWide) = contiguous 5 16 ∧
      positionsOf 'd' (baseForm .moveWide) = contiguous 0 5 := by decide
  obtain ⟨flag, code, position, value, target⟩ := runs
  simp only [wideMoveFields, List.forall_mem_cons, flag, code, position, value, target,
    BitPattern.gather_contiguous, Nat.shiftRight_eq_div_pow, WideMove.word]
  refine ⟨by omega, by omega, ⟨by decide, rfl, by omega⟩, ⟨by decide, rfl, by omega⟩,
    ⟨by decide, rfl, by omega⟩, ⟨by decide, rfl, by omega⟩, ⟨by decide, rfl, by omega⟩, by simp⟩

/-- The fields that a form reads from the word of a wide move that it accepts. -/
theorem read_wideMove {form : InstructionForm} (member : form ∈ forms)
    (accepted : form.pattern.accepts (move.word wide place half slot) = true) :
    ∃ kind ∈ [OperandKind.wide, .invertedWide], form.operands = [reg 'd', (kind, own)] ∧
      ∀ field ∈ [('h', place), ('j', half), ('d', slot)],
        Fields.read (form.pattern.decode (move.word wide place half slot)) field.1 =
          .ok field.2 := by
  obtain ⟨-, run, fields⟩ := gather_wideMove move wide inside small named
  obtain ⟨general, member', op, -, -, places, literals⟩ := exists_wideMove_form move
  have same : form.op = .moveWide :=
    (op_eq_of_accepts member accepted member' (BitPattern.accepts_of_run places literals run)).trans op
  obtain ⟨kind, isWide, operands⟩ := operands_of_moveWide form member same
  refine ⟨kind, isWide, operands, fun field among => ?_⟩
  have known : field ∈ wideMoveFields move wide place half slot :=
    List.mem_of_mem_drop (show field ∈ (wideMoveFields move wide place half slot).drop 2 from among)
  have set : ∃ operand ∈ form.operands, field.1 ∈ operand.1.letters operand.2 := by
    rw [operands]
    simp only [List.mem_cons, List.not_mem_nil, or_false] at among isWide
    rcases isWide with rfl | rfl <;> rcases among with rfl | rfl | rfl <;>
      simp [reg, OperandKind.letters, OperandKind.fieldLetters]
  obtain ⟨operand, listed, sets⟩ := set
  obtain ⟨hasField, notFlag⟩ := (sound form member).letters operand listed field.1 sets
  obtain ⟨present, symbolic, held⟩ := fields _ known
  rw [Fields.read, lookup_decode_baseForm member notFlag hasField, same, BitPattern.lookup_decode,
    BitPattern.positions?_ofTemplate, if_pos ⟨present, symbolic⟩, Option.map_some, held]

/-- A half-word of zeros above the lowest belongs to no form. -/
theorem decode_wideMove_eq_none (here : Int) (empty : half = 0) (above : place ≠ 0) :
    Codec.a64.decode (move.word wide place half slot) here = .ok none := by
  obtain ⟨short, -, -⟩ := gather_wideMove move wide inside small named
  have bits : Instruction.wordBits (move.word wide place half slot : Nat) =
      move.word wide place half slot := Bits.wrap_of_lt short
  refine decode_eq_none here ?_
  rw [table_a64, decodeOrder_table, bits]
  intro form member accepted
  obtain ⟨kind, isWide, operands, read⟩ := read_wideMove move wide inside small named member accepted
  simp only [List.forall_mem_cons] at read
  obtain ⟨readPlace, readHalf, -⟩ := read
  obtain ⟨admitted, decided⟩ : ∃ admitted,
      form.admits (form.pattern.decode (move.word wide place half slot)) = .ok admitted :=
    InstructionForm.admits_eq_ok (sound form member)
  cases admitted with
  | false => exact decided
  | true =>
    obtain ⟨-, -, each⟩ := (InstructionForm.admits_eq_true (sound form member)).mp decided
    have refused (inverted : Bool) (size : Nat) : InstructionForm.admitsWide inverted
        (form.pattern.decode (move.word wide place half slot)) size ≠ .ok true := fun admitted =>
      above (((InstructionForm.admitsWide_eq_true readHalf readPlace).mp admitted).2.1 empty)
    have condition := each (kind, own) (by rw [operands]; simp)
    simp only [List.mem_cons, List.not_mem_nil, or_false] at isWide
    rcases isWide with rfl | rfl
    · exact absurd condition (refused false _)
    · exact absurd condition (refused true _)

/-- The highest bit of the word tells the width. -/
theorem testBit_wideMove : (move.word wide place half slot).testBit 31 = wide := by
  obtain ⟨-, -, fields⟩ := gather_wideMove move wide inside small named
  obtain ⟨-, -, held⟩ := fields ('z', wide.toNat) (by simp [wideMoveFields])
  generalize move.word wide place half slot = word at held
  have flag : positionsOf 'z' (baseForm .moveWide) = contiguous 31 1 := by decide
  rw [flag, BitPattern.gather_contiguous, Nat.shiftRight_eq_div_pow] at held
  rw [Nat.testBit_eq_decide_div_mod_eq, show word / 2 ^ 31 % 2 = wide.toNat from held]
  cases wide <;> rfl

/-- A form that takes the half-word as it is admits every word but those of zeros above the lowest. -/
theorem admits_wideMove {form : InstructionForm} (member : form ∈ forms) (op : form.op = .moveWide)
    (operands : form.operands = [reg 'd', (.wide, own)]) (flag : form.flagBits = [31])
    (accepted : form.pattern.accepts (move.word wide place half slot) = true)
    (proper : half = 0 → place = 0) :
    form.admits (form.pattern.decode (move.word wide place half slot)) = .ok true := by
  have wellFormed := (checked member).wellFormed
  have top := testBit_wideMove move wide inside small named
  obtain ⟨-, -, -, read⟩ := read_wideMove move wide inside small named member accepted
  simp only [List.forall_mem_cons] at read
  obtain ⟨readPlace, readHalf, readTarget, -⟩ := read
  have isWide : form.isWide (form.pattern.decode (move.word wide place half slot)) = wide := by
    have present : 'z' ∈ form.pattern.template := by
      have here : 31 ∈ form.flagBits := flag ▸ List.mem_singleton_self 31
      exact List.mem_reverse.mp (List.mem_of_getElem? (BitPattern.mem_positionsOf.mp here))
    have clear : form.isWide (form.pattern.decode (move.word wide place half slot)) = false ↔ _ :=
      InstructionForm.isWide_decode wellFormed present
    rw [flag, List.forall_mem_singleton, top] at clear
    exact Bool.eq_iff_iff.mpr (by simpa using not_congr clear)
  refine (InstructionForm.admits_eq_true (sound form member)).mpr ⟨?_, ?_, ?_⟩
  · refine (InstructionForm.widthAgrees_decode wellFormed).mpr ?_
    rw [flag, List.forall_mem_singleton, List.forall_mem_singleton, top]
    cases wide <;> simp
  · rw [InstructionForm.positionsFit, op]
    rfl
  · rw [operands, isWide]
    refine List.forall_mem_cons.mpr ⟨?_, List.forall_mem_singleton.mpr ?_⟩
    · show (do return List.all (← List.mapM _ ['d']) _) = _
      simp [readTarget, bind, Except.bind, pure, Except.pure]
    · exact (InstructionForm.admitsWide_eq_true readHalf readPlace).mpr
        ⟨inside, proper, fun inverts => absurd inverts Bool.false_ne_true⟩

/-- Any other half-word in its place is executed as a wide move. -/
theorem decode_wideMove_eq_some (here : Int) (proper : half = 0 → place = 0) :
    ∃ instruction,
      Codec.a64.decode (move.word wide place half slot) here = .ok (some instruction) ∧
        Coded instruction .moveWide (wideMoveFields move wide place half slot) := by
  obtain ⟨short, run, fields⟩ := gather_wideMove move wide inside small named
  obtain ⟨form, member, op, operands, flag, places, literals⟩ := exists_wideMove_form move
  have accepted := BitPattern.accepts_of_run places literals run
  have admitted :=
    admits_wideMove move wide inside small named member op operands flag accepted proper
  obtain ⟨first, isFirst⟩ := OpcodeTable.exists_isFirst
    (fun other inside => InstructionForm.admits_eq_ok (sound other inside)) member accepted admitted
  have bits : Instruction.wordBits (move.word wide place half slot : Nat) =
      move.word wide place half slot := Bits.wrap_of_lt short
  rw [← bits, ← decodeOrder_table, ← table_a64] at isFirst
  obtain ⟨instruction, decoded, -⟩ := decode_of_isFirst here isFirst
  obtain ⟨executes, -⟩ := executes_of_decode decoded
  rw [bits] at executes
  have same : instruction.form.op = .moveWide :=
    (op_eq_of_accepts executes.member executes.accepted member accepted).trans op
  refine ⟨instruction, decoded, fun letters present => executes.offers (same ▸ present), same,
    fun field among => ?_⟩
  obtain ⟨present, symbolic, held⟩ := fields field among
  rw [Instruction.value, executes.lookup (same ▸ present) symbolic, same, held]
  rfl

end Words

/-- The words of wide moves, of all registers and all half-words in all places, are executed as wide
moves, except those of a half-word of zeros above the lowest. These belong to no form. -/
theorem execute_wideMove (here : Int) (move : WideMove) (wide : Bool) {place half slot : Nat}
    (inside : place < dataSize wide / 16) (small : half < 2 ^ 16) (named : slot < 32) :
    (half = 0 ∧ place ≠ 0 →
      Codec.a64.decode (move.word wide place half slot) here = .ok none) ∧
    ((half = 0 → place = 0) → ∃ instruction,
      Codec.a64.decode (move.word wide place half slot) here = .ok (some instruction) ∧
        instruction.form.op = .moveWide ∧
        ∀ before : CoreState, ∃ after, before.execute instruction = (.ok none, after) ∧
          before.Receives after ⟨slot, wide⟩
            (move.result (before.contents ⟨slot, wide⟩) place half) before.status) := by
  refine ⟨fun ⟨empty, above⟩ =>
    decode_wideMove_eq_none move wide inside small named here empty above, fun proper => ?_⟩
  obtain ⟨instruction, decoded, coded⟩ :=
    decode_wideMove_eq_some move wide inside small named here proper
  exact ⟨instruction, decoded, coded.op, fun before => CoreState.exists_execute
    (coded.ensures_wideMove move (List.Subset.refl _) inside small before)⟩

/-- A `movk` of zeros to the second half-word of `x0` belongs to no form, and the one of five leaves
the other half-words. -/
theorem execute_wideMove_movk :
    Codec.a64.decode 0xf2a00000 0 = .ok none ∧
      ∃ instruction, Codec.a64.decode 0xf2a000a0 0 = .ok (some instruction) ∧
        instruction.form.op = .moveWide ∧
        ∀ before : CoreState, ∃ after, before.execute instruction = (.ok none, after) ∧
          before.Receives after ⟨0, true⟩
            (Bits.withField (before.contents ⟨0, true⟩) 16 16 5) before.status := by
  have empty := (execute_wideMove 0 .movk true (show 1 < dataSize true / 16 by decide)
    (show 0 < 2 ^ 16 by decide) (show 0 < 32 by decide)).1 ⟨rfl, Nat.one_ne_zero⟩
  have proper := (execute_wideMove 0 .movk true (show 1 < dataSize true / 16 by decide)
    (show 5 < 2 ^ 16 by decide) (show 0 < 32 by decide)).2 (by simp)
  rw [show WideMove.word .movk true 1 0 0 = 0xf2a00000 by decide] at empty
  rw [show WideMove.word .movk true 1 5 0 = 0xf2a000a0 by decide] at proper
  exact ⟨empty, proper⟩

end InstructionSet

end A64Machine
