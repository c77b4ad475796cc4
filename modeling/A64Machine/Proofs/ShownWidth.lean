import A64Machine.Proofs.InstructionFrame
import A64Machine.Proofs.Observation
import A64Machine.Proofs.ShownRegisters

/-!
# The width that is shown is the width that is executed

The width of a register in the text comes from the displayed entry, and the width of its use from
the fields of the base form. They agree. A register that is shown at half width and written has
nothing left in its upper half. And the upper halves of registers that are not shown at full width
count for nothing: two states that differ in nothing else are treated alike.
-/

namespace A64Machine

/-! ### What is shown and what is used -/

/-- Whether an operand of a form names the register of a field at full width, for the width of the
instruction and the code of its extension. -/
def InstructionForm.showsWide (form : InstructionForm) (wide : Bool) (code : Nat) (letter : Char) :
    Bool :=
  form.operands.any fun operand =>
    (operand.1.registerLetters operand.2).contains letter && operand.1.showsWide wide code letter

namespace Instruction

/-- Whether an instruction is a return that names no register. -/
def IsBareReturn (instruction : Instruction) : Prop :=
  instruction.form.mnemonic = "ret" ∧ instruction.form.operands = []

/-- The operands that were read from the text of an instruction name a register at the place of one
of its fields. -/
def NamesAt (instruction : Instruction) (operands : List Operand) (letter : Char)
    (register : Register) : Prop :=
  ∃ (place : Nat) (kind : OperandKind) (role : List Char) (given : RegisterOperand),
    instruction.form.operands[place]? = some (kind, role) ∧ letter ∈ kind.registerLetters role ∧
      operands[place]? = some (.register given) ∧ given.register = register

end Instruction

namespace InstructionSet

/-- The most that the fields of a form can ask for which the form leaves open: the tested bit is
within the width, and a bitfield reaches over all of it. -/
def openValues (wide : Bool) (code : Nat) (letter : Char) : Nat :=
  if letter = 'o' then code else if letter = 'b' ∧ wide = false then 31 else 63

/-- Each register of which more than the lower half counts is shown at full width, or it is the zero
register, or the link register of a return that names no register. -/
theorem sources_shown : ∀ form ∈ forms, ∀ wide, ∀ code < 8, ∀ source ∈
    form.op.sources (knownSize form wide) (knownValues form wide (openValues wide code)),
      source.2 ≤ 32 ∨ form.showsWide wide code source.1 = true ∨
        knownField form wide source.1 = some Register.zeroSlot ∨
        (form.mnemonic = "ret" ∧ form.operands = []) ∧
          knownField form wide source.1 = some Register.linkSlot := by
  decide +kernel

/-- A form writes the register of a field, and leaves at most half the bits in all registers but a
base that it writes back. -/
def WritesHalf (form : InstructionForm) (wide : Bool) (letter : Char) : Prop :=
  letter ∈ (knownTargets form wide).map Prod.fst ∧ knownLinks form wide = false ∧
    ∀ target ∈ knownTargets form wide, target.2 ≤ 32 ∨ target.1 = 'n' ∧ form.changesBase = true

instance (form : InstructionForm) (wide : Bool) (letter : Char) :
    Decidable (WritesHalf form wide letter) :=
  inferInstanceAs (Decidable (_ ∧ _ ∧ _))

/-- A register that a form shows at half width and changes is written so. -/
theorem targets_shown : ∀ form ∈ forms, ∀ operand ∈ form.operands,
    ∀ letter ∈ operand.1.registerLetters operand.2, letter ∈ form.changes → ∀ wide, ∀ code < 8,
      operand.1.showsWide wide code letter = false → WritesHalf form wide letter := by
  decide +kernel

/-- A tested bit is a field, and tells the width. -/
theorem testBranch_fields : ∀ form ∈ forms, form.op = .testBranch →
    form.pattern.hasField 'z' = false ∧ form.pattern.hasField 'b' = true := by
  decide +kernel

/-! ### Decoded instructions -/

variable {instruction : Instruction} {form : InstructionForm} {word : Nat} {wide : Bool}

/-- The known value of a field is that of the instruction, or the field is left open. -/
theorem Executes.knownValues_or (executes : Executes instruction form word wide) {letter : Char}
    (symbolic : BitPattern.isLiteral letter = false) (rest : Char → Nat) :
    knownValues form wide rest letter = instruction.value letter ∨
      knownValues form wide rest letter = rest letter := by
  unfold knownValues
  cases known : knownField form wide letter with
  | none => exact .inr rfl
  | some value => exact .inl (executes.value_of_known symbolic known).symm

/-- A bitfield move depends on as many bits as can be, if its turn or its top is left open. -/
theorem fieldBits_le_of_open {size n r r' s s' : Nat} (turn : r' = r ∨ r' = 63)
    (top : s' = s ∨ s' = 63) : fieldBits size n r s ≤ fieldBits size n r' s' := by
  have whole : size ≤ fieldBits size n r' s' ∨ r' = r ∧ s' = s := by
    unfold fieldBits
    split <;> omega
  rcases whole with whole | ⟨rfl, rfl⟩
  · exact Nat.le_trans (Operation.fieldBits_le ..) whole
  · exact Nat.le_refl _

/-- The registers that an operation depends on are named by fields. -/
theorem isLiteral_of_source {op : Operation} {size : Nat} {value : Char → Nat} {letter : Char}
    {bits : Nat} (source : (letter, bits) ∈ op.sources size value) :
    BitPattern.isLiteral letter = false := by
  cases op <;> grind [Operation.sources, Transfer.storedRegister, BitPattern.isLiteral]

/-- An instruction depends on no more of a register than its form and its extension can ask for. -/
theorem exists_openSource (executes : Executes instruction instruction.form word wide)
    (width : wide = instruction.form.isWide (instruction.form.pattern.decode word))
    {letter : Char} {bits : Nat} (source : (letter, bits) ∈ instruction.sources) :
    ∃ most, (letter, most) ∈ instruction.form.op.sources (knownSize instruction.form wide)
        (knownValues instruction.form wide (openValues wide (instruction.value 'o'))) ∧
      bits ≤ most := by
  have isOpen {letter : Char} (symbolic : BitPattern.isLiteral letter = false) :=
    executes.knownValues_or symbolic (openValues wide (instruction.value 'o'))
  have extended : instruction.value 'o' = knownValues instruction.form wide
      (openValues wide (instruction.value 'o')) 'o' := (executes.knownValues_eq rfl rfl).symm
  rw [Instruction.sources, executes.dataSize_eq] at source
  refine Operation.exists_source_of_le (executes.value_of_controls _) extended (fun tests => ?_)
    (fun moves => ?_) source
  · -- A tested bit that is left open is within the width.
    rcases @isOpen 'b' rfl with known | isOpen
    · exact Nat.le_of_eq known.symm
    obtain ⟨noFlag, isField⟩ := testBranch_fields _ executes.member tests
    obtain ⟨tested, read⟩ := InstructionForm.exists_lookup_decode isField word
    have small : instruction.value 'b' < 2 ^ 6 := executes.value_lt (by decide)
    have same : instruction.value 'b' = tested := by
      rw [Instruction.value, executes.lookup_form (by decide) isField, read]
      rfl
    rw [InstructionForm.isWide, InstructionForm.lookup_decode_of_absent noFlag, read] at width
    rw [same] at small
    rw [isOpen, same, openValues]
    cases wide <;> simp at width ⊢ <;> omega
  · rw [← executes.value_of_controls _ 'N' (moves ▸ by decide)]
    exact fieldBits_le_of_open (isOpen rfl) (isOpen rfl)

end InstructionSet

namespace Instruction

/-- The operands that were read from the text of an instruction name the register in a slot at full
width. The text of a return that names no register stands for the full link register. -/
def ShowsFull (instruction : Instruction) (operands : List Operand) (slot : Nat) : Prop :=
  (⟨slot, true⟩ : Register) ∈ operands.flatMap Operand.registers ∨
    instruction.IsBareReturn ∧ slot = Register.linkSlot

/-- A register that the entry names at full width is shown so. -/
theorem ShowsAll.of_showsWide {instruction : Instruction} {operands : List Operand}
    (shows : instruction.ShowsAll operands) {letter : Char}
    (full : instruction.form.showsWide instruction.isWide (instruction.value 'o') letter = true) :
    instruction.ShowsFull operands (instruction.value letter) := by
  obtain ⟨⟨kind, role⟩, inside, both⟩ := List.any_eq_true.mp full
  obtain ⟨named, width⟩ := Bool.and_eq_true_iff.mp both
  obtain ⟨place, here⟩ := List.mem_iff_getElem?.mp inside
  obtain ⟨operand, there, shown⟩ := shows place kind role here
  obtain ⟨⟨slot, wide⟩, names, rfl, rfl⟩ := shown letter (List.contains_iff_mem.mp named)
  rw [width] at names
  exact .inl (List.mem_flatMap.mpr ⟨operand, List.mem_of_getElem? there, names⟩)

end Instruction

namespace InstructionSet

variable {instruction : Instruction} {word address : Int} {operands : List Operand}

/-- A register of which more than the lower half counts is shown at full width, or it is the zero
register. -/
theorem showsFull_of_source (decoded : Codec.a64.decode word address = .ok (some instruction))
    (shows : instruction.ShowsAll operands) {letter : Char} {bits : Nat}
    (source : (letter, bits) ∈ instruction.sources) :
    bits ≤ 32 ∨ instruction.value letter = Register.zeroSlot ∨
      instruction.ShowsFull operands (instruction.value letter) := by
  have executes := executes_isWide decoded
  have small : instruction.value 'o' < 2 ^ 3 := executes.value_lt (by decide)
  obtain ⟨most, source, atMost⟩ := exists_openSource executes rfl source
  have symbolic := isLiteral_of_source source
  rcases sources_shown _ executes.member _ _ small _ source with half | full | zero | ⟨bare, link⟩
  · exact .inl (Nat.le_trans atMost half)
  · exact .inr (.inr (shows.of_showsWide full))
  · exact .inr (.inl (executes.value_of_known symbolic zero))
  · exact .inr (.inr (.inr ⟨bare, executes.value_of_known symbolic link⟩))

/-- A register that is shown at half width and written is left with nothing in its upper half. -/
theorem value_lt_of_namesAt (decoded : Codec.a64.decode word address = .ok (some instruction))
    (shows : instruction.ShowsAll operands) {letter : Char} {register : Register}
    (names : instruction.NamesAt operands letter register)
    (changes : letter ∈ instruction.form.changes) (half : register.wide = false)
    (apart : ¬(instruction.form.changesBase = true ∧ instruction.value 'n' = register.slot))
    {state after : CoreState} {target : Option Nat}
    (completes : state.execute instruction = (.ok target, after)) :
    after.registers.value register.slot < 2 ^ 32 := by
  have executes := executes_isWide decoded
  have small : instruction.value 'o' < 2 ^ 3 := executes.value_lt (by decide)
  obtain ⟨place, kind, role, given, here, named, there, rfl⟩ := names
  obtain ⟨operand, there', shown⟩ := shows place kind role here
  obtain rfl := Option.some.inj (there.symm.trans there')
  obtain ⟨register, inside, slot, width⟩ := shown letter named
  obtain rfl := List.mem_singleton.mp inside
  obtain ⟨written, noLink, widths⟩ := targets_shown _ executes.member _
    (List.mem_of_getElem? here) letter named changes instruction.isWide _ small (width ▸ half)
  obtain ⟨targets, links, _⟩ := executes.effects_eq
  rw [← targets] at written widths
  rw [← links] at noLink
  have inside : given.register.slot ∈ instruction.written := by
    obtain ⟨target, member, rfl⟩ := List.mem_map.mp written
    rw [slot]
    exact List.mem_append_left _ (List.mem_map_of_mem member)
  obtain ⟨_, reached⟩ := (Execution.does_perform instruction).allows state
  obtain ⟨_, leaves⟩ := reached target after (CoreState.execute_eq_ok.mp completes) _ inside
  rw [Execution.Effects.Leaves] at leaves
  split at leaves
  · rw [leaves]
    decide
  · obtain ⟨bits, ⟨other, member, same⟩ | ⟨isLink, _⟩, fits⟩ := leaves
    · rcases widths _ member with narrow | ⟨rfl, based⟩
      · exact Nat.lt_of_lt_of_le fits (Nat.pow_le_pow_right (by decide) narrow)
      · exact absurd ⟨based, same.symm⟩ apart
    · exact absurd (noLink.symm.trans isLink) Bool.false_ne_true

end InstructionSet

/-! ### Two runs -/

namespace RegisterFile

/-- The registers that were written, as far as accesses are on record. -/
def writes (file : RegisterFile) : List Location :=
  (file.log.filter fun access => access.kind == .write).map Access.location

/-- A read is no write. -/
theorem writes_afterRead (file : RegisterFile) (slot : Nat) :
    (file.afterRead slot).writes = file.writes := by
  rw [writes, afterRead, recorded_eq, List.filter_append]
  split <;> simp [writes]

/-- A write is put on record. -/
theorem writes_afterWrite (file : RegisterFile) {slot : Nat} (value : Int) (small : slot < 32) :
    (file.afterWrite slot value).writes = file.writes ++
      if file.tracking = true ∧ (slot : Int) ≠ Register.zeroSlot then [.register slot] else [] := by
  rw [writes, afterWrite_eq _ _ small, recorded_eq, List.filter_append, List.map_append]
  split <;> rfl

end RegisterFile

namespace CoreState

open Execution

/-- Two states in step: they agree in the bits that may be read, in the flags and in memory, and the
registers that were written on both sides are the same and hold the same. -/
structure InStep (reads : (slot bits : Nat) → Prop) (one other : CoreState) : Prop where
  reads : ∀ slot bits : Nat, slot < 32 → reads slot bits →
    one.registers.value slot % 2 ^ bits = other.registers.value slot % 2 ^ bits
  status : other.status = one.status
  endianness : other.memory.endianness = one.memory.endianness
  bytes : other.memory.bytes = one.memory.bytes
  tracking : other.registers.tracking = one.registers.tracking
  writes : other.registers.writes = one.registers.writes
  written : ∀ slot : Nat, slot < 32 → .register slot ∈ one.registers.writes →
    other.registers.value slot = one.registers.value slot

/-- States in step hold the same in a register after both have written a value to one. -/
theorem InStep.afterWrite {reads : (slot bits : Nat) → Prop} {one other : CoreState}
    (inStep : InStep reads one other) {slot : Nat} (value : Nat) (small : slot < 32) :
    InStep reads { one with registers := one.registers.afterWrite slot value }
      { other with registers := other.registers.afterWrite slot value } := by
  have held (file : RegisterFile) (place : Nat) (small' : place < 32) :=
    file.value_afterWrite (value : Int) small small'
  refine ⟨fun place bits small' allowed => ?_, inStep.status, inStep.endianness, inStep.bytes,
    ?_, ?_, fun place small' inside => ?_⟩
  · simp only [held _ place small']
    split
    · rfl
    · split
      · rfl
      · exact inStep.reads place bits small' allowed
  · simp only [RegisterFile.afterWrite_eq _ _ small, RegisterFile.recorded_eq, inStep.tracking]
  · rw [RegisterFile.writes_afterWrite _ _ small, RegisterFile.writes_afterWrite _ _ small,
      inStep.writes, inStep.tracking]
  · rw [RegisterFile.writes_afterWrite _ _ small] at inside
    simp only [held _ place small']
    split
    · rfl
    · split
      · rfl
      · rename_i elsewhere
        refine inStep.written place small' ((List.mem_append.mp inside).resolve_right fun new => ?_)
        split at new <;> simp at new
        omega

/-- States in step stay so when both take the same primitive step. -/
theorem holdsOverBoth_inStep (reads : (slot bits : Nat) → Prop) :
    HoldsOverBoth reads (InStep reads) where
  agree inStep small allowed := inStep.reads _ _ small allowed
  readRegister {one other slot} inStep _ := by
    refine ⟨fun place bits small allowed => ?_, inStep.status, inStep.endianness, inStep.bytes,
      ?_, ?_, fun place small inside => ?_⟩
    · simp only [RegisterFile.value_afterRead, inStep.reads place bits small allowed]
    · simp only [RegisterFile.afterRead, RegisterFile.recorded_eq, inStep.tracking]
    · rw [RegisterFile.writes_afterRead, RegisterFile.writes_afterRead, inStep.writes]
    · rw [RegisterFile.writes_afterRead] at inside
      simp only [RegisterFile.value_afterRead, inStep.written place small inside]
  writeRegister value inStep small := inStep.afterWrite value small
  flags inStep := by rw [inStep.status]
  setFlags flags inStep := ⟨inStep.reads, rfl, inStep.endianness, inStep.bytes, inStep.tracking,
    inStep.writes, inStep.written⟩
  size inStep := by rw [Memory.size, Memory.size, inStep.bytes]
  valueAt address width inStep := by
    rw [Memory.valueAt, Memory.valueAt, inStep.endianness, inStep.bytes]
  load address width inStep := by
    refine ⟨inStep.reads, inStep.status, ?_, ?_, inStep.tracking, inStep.writes, inStep.written⟩
    · simp only [Memory.afterLoad, Memory.endianness_recorded, inStep.endianness]
    · simp only [Memory.afterLoad, Memory.bytes_recorded, inStep.bytes]
  store address width value inStep := by
    refine ⟨inStep.reads, inStep.status, ?_, ?_, inStep.tracking, inStep.writes, inStep.written⟩
    · simp only [Memory.afterStore, Memory.endianness_recorded, inStep.endianness]
    · simp only [Memory.afterStore, inStep.endianness, inStep.bytes]

/-- Two states agree in memory, in the flags and in some registers, and in the lower halves of all
others. The zero register, which never takes a value, holds the same in both. -/
structure AgreeUpTo (full : (slot : Nat) → Prop) (one other : CoreState) : Prop where
  endianness : other.memory.endianness = one.memory.endianness
  bytes : other.memory.bytes = one.memory.bytes
  status : other.status = one.status
  zero : other.registers.value Register.zeroSlot = one.registers.value Register.zeroSlot
  full : ∀ slot : Nat, slot < Register.zeroSlot → full slot →
    other.registers.value slot = one.registers.value slot
  low : ∀ slot : Nat, slot < Register.zeroSlot →
    other.registers.value slot % 2 ^ 32 = one.registers.value slot % 2 ^ 32

/-- The registers that an instruction writes from a state, whether it completes or not. -/
def writtenBy (state : CoreState) (instruction : Instruction) : List Location :=
  ((state.withoutRecords.track true).execute instruction).2.registers.writes

/-- An instruction does the same from two states: it ends with the same target or the same fault,
with the same flags and the same memory, and it writes the same registers, which hold the same then.
-/
structure ExecutesAlike (instruction : Instruction) (one other : CoreState) : Prop where
  outcome : (other.execute instruction).1 = (one.execute instruction).1
  status : (other.execute instruction).2.status = (one.execute instruction).2.status
  bytes : (other.execute instruction).2.memory.bytes = (one.execute instruction).2.memory.bytes
  written : other.writtenBy instruction = one.writtenBy instruction
  values : ∀ slot : Nat, slot < 32 → .register slot ∈ one.writtenBy instruction →
    (other.execute instruction).2.registers.value slot =
      (one.execute instruction).2.registers.value slot

/-- What states do that hold the same is alike. -/
theorem executesAlike_of_inStep {instruction : Instruction} {one other : CoreState}
    (inStep : InStep instruction.effects.reads (one.withoutRecords.track true)
      (other.withoutRecords.track true)) : ExecutesAlike instruction one other := by
  have recorded (state : CoreState) : state.Same (state.withoutRecords.track true) :=
    state.same_withoutRecords.trans (CoreState.same_track _ true)
  obtain ⟨outcome, same⟩ := (recorded one).execute instruction
  obtain ⟨outcome', same'⟩ := (recorded other).execute instruction
  obtain ⟨alike, after⟩ := execute_alike (holdsOverBoth_inStep _) inStep
  refine ⟨?_, ?_, ?_, after.writes, fun slot small inside => ?_⟩
  · rw [outcome, outcome', alike]
  · rw [← same.status, ← same'.status, after.status]
  · rw [← same.bytes, ← same'.bytes, after.bytes]
  · rw [← same.value, ← same'.value, after.written slot small inside]

end CoreState

namespace InstructionSet

variable {instruction : Instruction} {word address : Int} {operands : List Operand}

/-- What an instruction does is told by the registers that are shown at full width and the lower
halves of the others. -/
theorem executesAlike_of_agreeUpTo
    (decoded : Codec.a64.decode word address = .ok (some instruction))
    (shows : instruction.ShowsAll operands) {one other : CoreState}
    (agree : CoreState.AgreeUpTo (instruction.ShowsFull operands) one other) :
    CoreState.ExecutesAlike instruction one other := by
  refine CoreState.executesAlike_of_inStep
    ⟨?_, agree.status, agree.endianness, agree.bytes, rfl, rfl, fun _ _ inside => by cases inside⟩
  rintro slot bits small ⟨letter, source, rfl⟩
  show one.registers.value _ % _ = other.registers.value _ % _
  by_cases zero : instruction.value letter = Register.zeroSlot
  · rw [zero, agree.zero]
  have general : instruction.value letter < Register.zeroSlot :=
    Nat.lt_of_le_of_ne (Nat.le_of_lt_succ small) zero
  rcases showsFull_of_source decoded shows source with half | isZero | full
  · have low (value : Nat) : value % 2 ^ 32 % 2 ^ bits = value % 2 ^ bits :=
      Nat.mod_mod_of_dvd value (Nat.pow_dvd_pow 2 half)
    rw [← low (one.registers.value _), ← agree.low _ general, low]
  · exact absurd isZero zero
  · rw [agree.full _ general full]

/-- The width that an instruction shows is the one at which it is executed. Its text is read back as
operands. A register that these name at half width and that the instruction writes has nothing left
in its upper half, unless it is also a base that is written back. And whatever the instruction does
is the same from two states that differ in nothing but the upper halves of registers which the
operands do not name at full width. -/
theorem executes_shown_width (decoded : Codec.a64.decode word address = .ok (some instruction)) :
    ∃ text operands, instruction.text = .ok text ∧
      Operand.parse (Text.behindBlank text) 0 = .ok operands ∧
      (∀ (letter : Char) (register : Register), instruction.NamesAt operands letter register →
        letter ∈ instruction.form.changes → register.wide = false →
        ¬(instruction.form.changesBase = true ∧ instruction.value 'n' = register.slot) →
        ∀ (state : CoreState) (target : Option Nat) (after : CoreState),
          state.execute instruction = (.ok target, after) →
          after.registers.value register.slot < 2 ^ 32) ∧
      ∀ one other, CoreState.AgreeUpTo (instruction.ShowsFull operands) one other →
        CoreState.ExecutesAlike instruction one other := by
  obtain ⟨text, operands, written, parsed, shows⟩ := exists_showsAll decoded
  exact ⟨text, operands, written, parsed,
    fun _ _ names changes half apart _ _ _ completes =>
      value_lt_of_namesAt decoded shows names changes half apart completes,
    fun _ _ agree => executesAlike_of_agreeUpTo decoded shows agree⟩

/-- A state with a value in `x1` and zero everywhere else, with an empty memory. -/
def onlyX1 (value : Nat) : CoreState :=
  ⟨{ RegisterFile.initial with slots := (Vector.replicate 32 0).set 1 value }, .clear,
    .ofBytes .little #[]⟩

/-- A `sxtb w0, w1` reads a byte of `x1`. It does the same whatever stands in the upper half of
`x1`, and clears that of `x0`. -/
theorem executes_shown_width_signExtendedByte :
    ∃ instruction operands, Codec.a64.decode 0x13001c20 0 = .ok (some instruction) ∧
      instruction.text = .ok "sxtb w0, w1" ∧
      Operand.parse (Text.behindBlank "sxtb w0, w1") 0 = .ok operands ∧
      operands.flatMap Operand.registers = [⟨0, false⟩, ⟨1, false⟩] ∧
      (onlyX1 0x80).writtenBy instruction = [.register 0] ∧
      ((onlyX1 0x80).execute instruction).2.registers.value 0 < 2 ^ 32 ∧
      CoreState.ExecutesAlike instruction (onlyX1 0x80)
        (onlyX1 0xffffffff00000080) := by
  obtain ⟨instruction, decoded, told⟩ :=
    @exists_decode_telling _ (fun form => (form.op, form.operands,
      (Instruction.text ⟨0, 0x13001c20, form, [], true⟩).toOption))
      (.bitfield, [(.register, ['d']), (.halfRegister, ['n'])], some "sxtb w0, w1") 0x13001c20 0
      (by decide +kernel)
  obtain ⟨op, told⟩ := Prod.mk.inj told
  obtain ⟨kinds, printed⟩ := Prod.mk.inj told
  obtain ⟨_, here, sameWord, _⟩ := decode_eq_some decoded
  have fields : instruction.fields =
      [('z', 0), ('c', 0), ('N', 0), ('r', 0), ('s', 7), ('n', 1), ('d', 0)] := by
    obtain ⟨executes, _⟩ := executes_of_decode decoded
    rw [executes.fields, op]
    decide +kernel
  have written : instruction.text = .ok "sxtb w0, w1" := by
    rw [← here, ← sameWord] at printed
    exact toOption_eq_some.mp printed
  have read : (Operand.parse (Text.behindBlank "sxtb w0, w1") 0).toOption =
      some [.register ⟨"w0", ⟨0, false⟩, none, none, ⟨0, 2⟩⟩,
        .register ⟨"w1", ⟨1, false⟩, none, none, ⟨4, 6⟩⟩] := by
    decide +kernel
  have executed : (onlyX1 0x80).execute instruction =
      (.ok none, ((onlyX1 0x80).execute instruction).2) ∧
        (onlyX1 0x80).writtenBy instruction = [.register 0] := by
    obtain ⟨address, word, form, _, bound⟩ := instruction
    simp only at op fields
    subst fields
    simp only [CoreState.writtenBy, CoreState.execute, Execution.perform, op]
    exact ⟨rfl, rfl⟩
  obtain ⟨text, operands, written', parsed, half, alike⟩ := executes_shown_width decoded
  obtain rfl := Except.ok.inj (written.symm.trans written')
  obtain rfl := Except.ok.inj (parsed.symm.trans (toOption_eq_some.mp read))
  refine ⟨instruction, _, decoded, written, parsed, rfl, executed.2, ?_, alike _ _ ?_⟩
  · have changed : 'd' ∈ instruction.form.changes := by
      simp [InstructionForm.changes, op, Operation.isDataProcessing]
    refine half 'd' ⟨0, false⟩ ⟨0, .register, ['d'], _, by rw [kinds]; rfl, by decide, rfl, rfl⟩
      changed rfl (fun both => ?_) _ _ _ executed.1
    simp [InstructionForm.changesBase, kinds] at both
  · refine ⟨rfl, rfl, rfl, rfl, fun slot _ full => ?_, by decide +kernel⟩
    rcases full with shown | ⟨⟨_, bare⟩, _⟩
    · simp [Operand.registers] at shown
    · rw [kinds] at bare
      exact absurd bare (List.cons_ne_nil _ _)

end InstructionSet

end A64Machine
