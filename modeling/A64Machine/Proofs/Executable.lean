import A64Machine.Proofs.ExecutedFields

/-!
# Decoded instructions can be executed

An instruction that was decoded has every field that its execution reads, its register fields name
registers, and its codes and masks are ones that the execution knows: the reserved combinations are
kept out by literal bits of the forms or by the conditions of admission. What is left are accesses
of memory out of bounds.
-/

namespace A64Machine

/-- The value of a field, which is zero where the instruction has no such field. -/
def Instruction.value (instruction : Instruction) (letter : Char) : Nat :=
  (instruction.fields.lookup letter).getD 0

/-- An instruction with the fields of some letters, in which register fields name registers. -/
structure Instruction.Offers (instruction : Instruction) (letters : List Char) : Prop where
  present : ∀ letter ∈ letters,
    instruction.fields.lookup letter = some (instruction.value letter)
  registers : ∀ letter ∈ ['d', 'n', 'm', 'a', 't', 'u'], instruction.value letter < 32

/-- An instruction with some fields has fewer fields too. -/
theorem Instruction.Offers.mono {instruction : Instruction} {letters fewer : List Char}
    (offers : instruction.Offers letters) (among : ∀ letter ∈ fewer, letter ∈ letters) :
    instruction.Offers fewer :=
  ⟨fun letter inside => offers.present letter (among letter inside), offers.registers⟩

namespace MemoryFault

/-- A look at the working copy can only be out of bounds. -/
theorem isAccessFault_of_peek {memory : Memory} {address width : Int} {fault : MemoryFault}
    (failed : memory.peek address width = .error fault) : fault.isAccessFault = true := by
  rw [Memory.peek, Memory.readBytes] at failed
  split at failed
  · contradiction
  · rw [← Except.error.inj failed]
    rfl

/-- A look at the origin can only be out of bounds. -/
theorem isAccessFault_of_peekOrigin {memory : Memory} {address width : Int} {fault : MemoryFault}
    (failed : memory.peekOrigin address width = .error fault) : fault.isAccessFault = true := by
  rw [Memory.peekOrigin] at failed
  split at failed
  · contradiction
  · rw [← Except.error.inj failed]
    rfl

/-- A read can only be out of bounds. -/
theorem isAccessFault_of_read {memory : Memory} {address width : Int} {fault : MemoryFault}
    (failed : memory.read address width = .error fault) : fault.isAccessFault = true :=
  isAccessFault_of_peek (map_eq_error.mp failed)

/-- A write of no bytes or more can only be out of bounds. -/
theorem isAccessFault_of_write {memory : Memory} {address value : Int} {width : Nat}
    {fault : MemoryFault} (failed : memory.write address width value = .error fault) :
    fault.isAccessFault = true := by
  rw [Memory.write] at failed
  cases peeked : memory.peek address width with
  | ok before =>
    rw [ok_bind peeked, if_neg (by omega)] at failed
    contradiction
  | error other =>
    rw [peeked] at failed
    exact Except.error.inj failed ▸ isAccessFault_of_peek peeked

end MemoryFault

namespace Transfer

/-- Number of bytes of each access of a transfer of two registers. -/
def pairWidth (instruction : Instruction) : Nat :=
  if (instruction.value 'c').testBit 1 then 8 else 4

theorem pairWidth_le (instruction : Instruction) : pairWidth instruction ≤ 8 := by
  unfold pairWidth
  split <;> decide

end Transfer

/-- Whether an operation accesses memory. -/
def Operation.isTransfer : Operation → Bool
  | .transferScaled | .transferNear | .transferIndexed | .transferLiteral | .transferPair => true
  | _ => false

/-- Whether a fault is an access of memory out of bounds. -/
def ExecutionFault.IsAccess (fault : ExecutionFault) : Prop :=
  ∃ access, fault = .memory access ∧ access.isAccessFault = true

namespace Execution

variable {instruction : Instruction} {allowed : ExecutionFault → Prop} {state : CoreState}

/-! ### Offered fields -/

@[simp] theorem ensures_field_offered {condition : Nat → CoreState → Prop} {letter : Char}
    (present : instruction.fields.lookup letter = some (instruction.value letter)) :
    Ensures allowed (field instruction letter) condition state ↔
      condition (instruction.value letter) state :=
  ensures_field present

@[simp] theorem ensures_readField_offered {condition : Nat → CoreState → Prop} {letter : Char}
    {size : Nat} (present : instruction.fields.lookup letter = some (instruction.value letter))
    (small : instruction.value letter < 32) :
    Ensures allowed (readField instruction letter size) condition state ↔
      condition (state.registers.value (instruction.value letter) % 2 ^ size)
        { state with
          registers := state.registers.afterRead (instruction.value letter) } :=
  ensures_readField present small

@[simp] theorem ensures_writeField_offered {condition : Unit → CoreState → Prop} {letter : Char}
    {size : Nat} {value : Int}
    (present : instruction.fields.lookup letter = some (instruction.value letter))
    (small : instruction.value letter < 32) :
    Ensures allowed (writeField instruction letter value size) condition state ↔
      condition ()
        { state with
          registers := state.registers.afterWrite (instruction.value letter)
            (Bits.wrap size value) } :=
  ensures_writeField present small

/-! ### Data processing -/

open DataProcessing

theorem completes_addSubExtended
    (offers : instruction.Offers ['n', 'm', 'o', 'i', 'p', 'd', 'f']) :
    Ensures allowed (addSubExtended instruction) (fun _ _ => True) state := by
  simp [addSubExtended, addSub, offers.present, offers.registers]

theorem completes_addSubShifted
    (offers : instruction.Offers ['n', 'm', 's', 'i', 'p', 'd', 'f']) :
    Ensures allowed (addSubShifted instruction) (fun _ _ => True) state := by
  simp [addSubShifted, addSub, offers.present, offers.registers]

theorem completes_addSubImmediate (offers : instruction.Offers ['n', 'i', 's', 'p', 'd', 'f']) :
    Ensures allowed (addSubImmediate instruction) (fun _ _ => True) state := by
  simp [addSubImmediate, addSub, offers.present, offers.registers]

theorem completes_addSubCarry (offers : instruction.Offers ['n', 'm', 'p', 'd', 'f']) :
    Ensures allowed (addSubCarry instruction) (fun _ _ => True) state := by
  simp [addSubCarry, addSub, offers.present, offers.registers]

theorem completes_logicShifted (offers : instruction.Offers ['m', 's', 'i', 'N', 'n', 'c', 'd']) :
    Ensures allowed (logicShifted instruction) (fun _ _ => True) state := by
  simp [logicShifted, logic, offers.present, offers.registers]

theorem completes_logicImmediate (offers : instruction.Offers ['N', 's', 'r', 'n', 'c', 'd'])
    {unpacked : Nat × Nat}
    (proper : LogicalImmediate.decode (instruction.value 'N') (instruction.value 's')
      (instruction.value 'r') (dataSize instruction) true = some unpacked) :
    Ensures allowed (logicImmediate instruction) (fun _ _ => True) state := by
  simp [logicImmediate, masks, logic, offers.present, offers.registers, proper]

theorem completes_moveWide (offers : instruction.Offers ['h', 'j', 'c', 'd']) :
    Ensures allowed (moveWide instruction) (fun _ _ => True) state := by
  simp [moveWide, offers.present, offers.registers]

theorem completes_bitfield (offers : instruction.Offers ['N', 's', 'r', 'n', 'c', 'd'])
    {unpacked : Nat × Nat}
    (proper : LogicalImmediate.decode (instruction.value 'N') (instruction.value 's')
      (instruction.value 'r') (dataSize instruction) false = some unpacked) :
    Ensures allowed (bitfield instruction) (fun _ _ => True) state := by
  simp [bitfield, masks, offers.present, offers.registers, proper]

theorem completes_extract (offers : instruction.Offers ['n', 'm', 's', 'd']) :
    Ensures allowed (extract instruction) (fun _ _ => True) state := by
  simp [extract, offers.present, offers.registers]

theorem completes_oneSource (offers : instruction.Offers ['n', 'c', 'd'])
    (code : instruction.value 'c' ∈ [0, 1, 2, 3, 4, 5]) :
    Ensures allowed (oneSource instruction) (fun _ _ => True) state := by
  simp only [List.mem_cons, List.not_mem_nil, or_false] at code
  rcases code with code | code | code | code | code | code <;>
    simp [oneSource, offers.present, offers.registers, code]

theorem completes_twoSource (offers : instruction.Offers ['n', 'm', 'c', 'd'])
    (code : instruction.value 'c' ∈ [2, 3, 8, 9, 10, 11]) :
    Ensures allowed (twoSource instruction) (fun _ _ => True) state := by
  simp only [List.mem_cons, List.not_mem_nil, or_false] at code
  rcases code with code | code | code | code | code | code <;>
    simp [twoSource, offers.present, offers.registers, code]

theorem completes_threeSource (offers : instruction.Offers ['n', 'm', 'a', 'c', 'p', 'd'])
    (code : instruction.value 'c' ∈ [0, 1, 2, 5, 6]) :
    Ensures allowed (threeSource instruction) (fun _ _ => True) state := by
  simp only [List.mem_cons, List.not_mem_nil, or_false] at code
  rcases code with code | code | code | code | code <;>
    simp [threeSource, accumulate, multiplyHigh, offers.present, offers.registers, code]

theorem completes_pcRelative (offers : instruction.Offers ['I', 'i', 'p', 'd']) :
    Ensures allowed (pcRelative instruction) (fun _ _ => True) state := by
  simp [pcRelative, offers.present, offers.registers]

/-! ### Branches -/

/-- The link register is written. -/
theorem ensures_link {condition : Unit → CoreState → Prop} :
    Ensures allowed (Branch.link instruction) condition state ↔
      condition ()
        { state with
          registers := state.registers.afterWrite Register.linkSlot
            (Bits.wrap 64 (instruction.address + Instruction.byteLength)) } :=
  ensures_writeRegister (by decide)

theorem completes_branchImmediate (offers : instruction.Offers ['p', 'I']) :
    Ensures allowed (Branch.immediate instruction) (fun _ _ => True) state := by
  simp [Branch.immediate, Branch.relative, ensures_link, offers.present]

theorem completes_branchConditional (offers : instruction.Offers ['c', 'I']) :
    Ensures allowed (Branch.conditional instruction) (fun _ _ => True) state := by
  simp [Branch.conditional, Branch.relative, offers.present]

theorem completes_compareBranch (offers : instruction.Offers ['t', 'p', 'I']) :
    Ensures allowed (Branch.compare instruction) (fun _ _ => True) state := by
  simp [Branch.compare, Branch.relative, offers.present, offers.registers]

theorem completes_testBranch (offers : instruction.Offers ['t', 'b', 'p', 'I']) :
    Ensures allowed (Branch.test instruction) (fun _ _ => True) state := by
  simp [Branch.test, Branch.relative, offers.present, offers.registers]

theorem completes_branchRegister (offers : instruction.Offers ['n', 'c']) :
    Ensures allowed (Branch.register instruction) (fun _ _ => True) state := by
  simp [Branch.register, ensures_link, offers.present, offers.registers]

/-! ### Transfers -/

open Transfer

/-- A transfer completes unless its access is out of bounds. -/
theorem completes_transfer {code width address slot : Nat} (small : slot < 32)
    (narrow : width ≤ 8) :
    Ensures ExecutionFault.IsAccess (transfer code width address slot) (fun _ _ => True) state := by
  rcases Nat.eq_zero_or_pos code with rfl | loads
  · rw [ensures_transfer_store small narrow]
    split
    · trivial
    · rename_i fault failed
      exact ⟨fault, rfl, MemoryFault.isAccessFault_of_write failed⟩
  · rw [ensures_transfer_load (Nat.ne_of_gt loads) small]
    split
    · trivial
    · rename_i fault failed
      exact ⟨fault, rfl, MemoryFault.isAccessFault_of_read failed⟩

/-- The access sizes of two bits are at most eight bytes. -/
theorem width_le {size : Nat} (small : size < 4) : 2 ^ size ≤ 8 :=
  Nat.pow_le_pow_right (by decide) (Nat.le_of_lt_succ small)

theorem completes_writeBack {mode base : Nat} {offset : Int} (offers : instruction.Offers ['n']) :
    Ensures allowed (writeBack instruction mode base offset) (fun _ _ => True) state := by
  simp [writeBack, offers.present, offers.registers]

theorem completes_scaled (offers : instruction.Offers ['x', 'n', 'I', 'c', 't'])
    (size : instruction.value 'x' < 4) :
    Ensures ExecutionFault.IsAccess (scaled instruction) (fun _ _ => True) state := by
  simp only [scaled, ensures_bind, ensures_field_offered, ensures_readField_offered,
    offers.present, offers.registers, List.mem_cons, true_or, or_true]
  exact completes_transfer (offers.registers 't' (by decide)) (width_le size)

theorem completes_near (offers : instruction.Offers ['x', 'n', 'I', 'w', 'c', 't'])
    (size : instruction.value 'x' < 4) :
    Ensures ExecutionFault.IsAccess (near instruction) (fun _ _ => True) state := by
  simp only [near, ensures_bind, ensures_field_offered, ensures_readField_offered,
    offers.present, offers.registers, List.mem_cons, true_or, or_true]
  exact (completes_transfer (offers.registers 't' (by decide)) (width_le size)).imp
    fun _ _ _ => completes_writeBack (offers.mono (by decide))

theorem completes_indexed (offers : instruction.Offers ['x', 'S', 'm', 'o', 'n', 'c', 't'])
    (size : instruction.value 'x' < 4) :
    Ensures ExecutionFault.IsAccess (indexed instruction) (fun _ _ => True) state := by
  simp only [indexed, ensures_bind, ensures_field_offered, ensures_readField_offered,
    offers.present, offers.registers, List.mem_cons, true_or, or_true]
  exact completes_transfer (offers.registers 't' (by decide)) (width_le size)

theorem completes_literal (offers : instruction.Offers ['I', 'c', 't']) :
    Ensures ExecutionFault.IsAccess (literal instruction) (fun _ _ => True) state := by
  simp only [literal, ensures_bind, ensures_ite, ensures_field_offered, offers.present,
    List.mem_cons, true_or, or_true]
  split
  · exact completes_transfer (offers.registers 't' (by decide)) (by decide)
  · exact completes_transfer (offers.registers 't' (by decide)) (by split <;> decide)

theorem completes_pair (offers : instruction.Offers ['c', 'n', 'I', 'w', 'L', 't', 'u']) :
    Ensures ExecutionFault.IsAccess (pair instruction) (fun _ _ => True) state := by
  have narrow : (if (instruction.value 'c').testBit 1 then 8 else 4) ≤ 8 := by split <;> decide
  simp only [pair, ensures_bind, ensures_field_offered, ensures_readField_offered,
    offers.present, offers.registers, List.mem_cons, true_or, or_true]
  exact (completes_transfer (offers.registers 't' (by decide)) narrow).imp fun _ _ _ =>
    (completes_transfer (offers.registers 'u' (by decide)) narrow).imp fun _ _ _ =>
      completes_writeBack (offers.mono (by decide))

end Execution

/-! ### Decoded instructions -/

namespace InstructionSet

open BitPattern (positionsOf isLiteral knownValue)

/-- The most bits of the fields that name a register, the size of an access, an extension or a tested
bit. -/
def fieldBounds : List (Char × Nat) :=
  [('d', 5), ('n', 5), ('m', 5), ('a', 5), ('t', 5), ('u', 5), ('x', 2), ('o', 3), ('b', 6)]

/-- No base form exceeds the bounds of its fields. -/
theorem length_le_fieldBound : ∀ op ∈ Operation.executable, ∀ bound ∈ fieldBounds,
    (positionsOf bound.1 (baseForm op)).length ≤ bound.2 := by
  decide

/-- The operation codes that are executed. -/
def sourceCodes : Operation → List Nat
  | .oneSource => [0, 1, 2, 3, 4, 5]
  | .twoSource => [2, 3, 8, 9, 10, 11]
  | .threeSource => [0, 1, 2, 5, 6]
  | _ => []

/-- A form of an operation with codes fixes one that is executed. -/
theorem exists_sourceCode : ∀ form ∈ forms, form.op ∈ [.oneSource, .twoSource, .threeSource] →
    ∀ wide, ∃ code ∈ sourceCodes form.op,
      knownValue form.pattern.template wide (positionsOf 'c' (baseForm form.op)) = some code := by
  decide +kernel

/-- In a bitfield move the width flag also stands for the size of the element. -/
theorem exists_bitfieldFlag : ∀ form ∈ forms, form.op = .bitfield → ∀ wide, ∃ flag : Bool,
    knownValue form.pattern.template wide (positionsOf 'z' (baseForm form.op)) = some flag.toNat ∧
      knownValue form.pattern.template wide (positionsOf 'N' (baseForm form.op)) =
        some flag.toNat := by
  decide +kernel

/-- A logical operation on an immediate has the width flag and a packed immediate. -/
theorem known_logicImmediate : ∀ form ∈ forms, form.op = .logicImmediate →
    (.bitmask, own) ∈ form.operands ∧ ∀ wide,
      knownValue form.pattern.template wide (positionsOf 'z' (baseForm form.op)) =
        some wide.toNat := by
  decide +kernel

/-- The binary logarithm of the size of a register. -/
def sizeLength (wide : Bool) : Nat := if wide then 6 else 5

theorem two_pow_sizeLength (wide : Bool) : 2 ^ sizeLength wide = InstructionForm.dataSize wide := by
  cases wide <;> rfl

/-- An element of 32 bits fills a half register, and one of 64 bits fills a full one. -/
theorem decode_element {flag : Bool} {s : Nat} (small : s < InstructionForm.dataSize flag)
    (r : Nat) :
    LogicalImmediate.decode flag.toNat s r (InstructionForm.dataSize flag) false =
      some (LogicalImmediate.masks (sizeLength flag) s r (InstructionForm.dataSize flag)) := by
  have element {n size length : Nat} (known : (n <<< 6 ||| (63 - s % 64)).log2 = length)
      (positive : 1 ≤ length) (fits : 2 ^ length ≤ size) :
      LogicalImmediate.decode n s r size false =
        some (LogicalImmediate.masks length s r size) := by
    simp only [LogicalImmediate.decode, known]
    rw [if_neg (by omega), if_neg (by simp), if_neg (by omega)]
  have full : ∀ s < 64, (1 <<< 6 ||| (63 - s % 64)).log2 = 6 := by decide
  have half : ∀ s < 32, (0 <<< 6 ||| (63 - s % 64)).log2 = 5 := by decide
  cases flag with
  | true => exact element (full s small) (by decide) (by decide)
  | false => exact element (half s small) (by decide) (by decide)

namespace Executes

variable {instruction : Instruction} {form : InstructionForm} {word : Nat} {wide : Bool}

/-- The fields of an instruction are within their bounds. -/
theorem value_lt (executes : Executes instruction form word wide) {letter : Char} {width : Nat}
    (bounded : (letter, width) ∈ fieldBounds) : instruction.value letter < 2 ^ width := by
  rw [Instruction.value, executes.fields, BitPattern.lookup_decode,
    BitPattern.positions?_ofTemplate]
  split
  · obtain ⟨executable, _⟩ := accepts_baseForm executes.member
    exact Nat.lt_of_lt_of_le (BitPattern.gather_lt _ _)
      (Nat.pow_le_pow_right (by decide) (length_le_fieldBound _ executable _ bounded))
  · exact Nat.two_pow_pos width

/-- An instruction offers fields of its base form. -/
theorem offers (executes : Executes instruction form word wide) {letters : List Char}
    (within : ∀ letter ∈ letters, letter ∈ baseForm form.op ∧ isLiteral letter = false) :
    instruction.Offers letters where
  present letter inside := by
    obtain ⟨present, symbolic⟩ := within letter inside
    rw [Instruction.value, executes.lookup present symbolic]
    rfl
  registers letter inside := by
    have bounded : ∀ letter ∈ ['d', 'n', 'm', 'a', 't', 'u'], (letter, 5) ∈ fieldBounds := by
      decide
    exact executes.value_lt (bounded letter inside)

/-- A field holds what an operand has set it to. -/
theorem value_of_drafted (executes : Executes instruction form word wide) {draft : Draft}
    (drafted : Encode.Drafted form draft word) {operand : FormOperand}
    (inside : operand ∈ form.operands) {letter : Char}
    (sets : letter ∈ operand.1.letters operand.2) {given : Int}
    (set : draft.values.lookup letter = some given) : given = instruction.value letter := by
  obtain ⟨field, notFlag⟩ := (sound form executes.member).letters operand inside letter sets
  obtain ⟨value, read, same⟩ := executes.lookup_of_drafted drafted notFlag field set
  rw [same, Instruction.value, read]
  rfl

/-- The data size is that of the width flag. -/
theorem dataSize_of_flag {flag : Bool}
    (known : instruction.fields.lookup 'z' = some flag.toNat) :
    Execution.dataSize instruction = InstructionForm.dataSize flag := by
  rw [Execution.dataSize, known]
  cases flag <;> rfl

/-- The code of an operation with codes is one that is executed. -/
theorem sourceCode (executes : Executes instruction form word wide)
    (coded : form.op ∈ [.oneSource, .twoSource, .threeSource]) :
    instruction.value 'c' ∈ sourceCodes form.op := by
  obtain ⟨code, executed, known⟩ := exists_sourceCode form executes.member coded wide
  have present : 'c' ∈ baseForm form.op := by
    simp only [List.mem_cons, List.not_mem_nil, or_false] at coded
    rcases coded with op | op | op <;> rw [op] <;> decide
  rw [Instruction.value, executes.lookup_of_known present (by decide) known]
  exact executed

/-- The positions of a bitfield move make up masks. -/
theorem exists_bitfieldMasks (executes : Executes instruction form word wide)
    (op : form.op = .bitfield) (admitted : form.admits (form.pattern.decode word) = .ok true) :
    ∃ unpacked, LogicalImmediate.decode (instruction.value 'N') (instruction.value 's')
      (instruction.value 'r') (Execution.dataSize instruction) false = some unpacked := by
  obtain ⟨flag, knownZ, knownN⟩ := exists_bitfieldFlag form executes.member op wide
  have compiled := (checked executes.member).wellFormed
  have readZ := executes.lookup_of_known (by rw [op]; decide) (by decide) knownZ
  have readN := executes.lookup_of_known (by rw [op]; decide) (by decide) knownN
  have readS := @lookup _ _ _ _ executes 's' (by rw [op]; decide) (by decide)
  obtain ⟨agrees, fits, _⟩ := (InstructionForm.admits_eq_true (sound _ executes.member)).mp admitted
  have within := (positionsFit_bitfield executes.member op executes.accepted agrees).mp fits
  have top : word.testBit 31 = flag := by
    have gathered :=
      BitPattern.gather_of_knownValue compiled executes.accepted executes.flags knownZ
    rw [op, show positionsOf 'z' (baseForm .bitfield) = [31] from by decide,
      BitPattern.gather_cons] at gathered
    cases flag <;> cases set : word.testBit 31 <;> simp [set, BitPattern.gather] at gathered ⊢
  rw [op, show positionsOf 's' (baseForm .bitfield) = 15 :: BitPattern.contiguous 10 5 from by decide]
    at readS
  rw [Instruction.value, readN, dataSize_of_flag readZ, Instruction.value, readS]
  refine ⟨_, decode_element ?_ _⟩
  cases flag with
  | true => exact BitPattern.gather_lt word (15 :: BitPattern.contiguous 10 5)
  | false =>
    have clear : word.testBit 15 = false := by
      simpa [BeyondWidth, op, top] using fun set => within ⟨op, top, .inr set⟩
    have rest : BitPattern.gather word (BitPattern.contiguous 10 5) < 2 ^ 5 :=
      BitPattern.gather_lt word _
    rw [Option.getD_some, BitPattern.gather_cons, clear]
    simpa [InstructionForm.dataSize] using rest

/-- The packed immediate of a logical operation has a mask. -/
theorem exists_logicMasks (executes : Executes instruction form word wide)
    (op : form.op = .logicImmediate)
    (isWide : form.isWide (form.pattern.decode word) = wide)
    (admitted : form.admits (form.pattern.decode word) = .ok true) :
    ∃ unpacked, LogicalImmediate.decode (instruction.value 'N') (instruction.value 's')
      (instruction.value 'r') (Execution.dataSize instruction) true = some unpacked := by
  obtain ⟨inside, knownZ⟩ := known_logicImmediate form executes.member op
  have readZ := executes.lookup_of_known (by rw [op]; decide) (by decide) (knownZ wide)
  obtain ⟨_, _, conditions⟩ := (InstructionForm.admits_eq_true (sound _ executes.member)).mp admitted
  have condition := conditions _ inside
  rw [isWide, ← dataSize_of_flag readZ] at condition
  have read {letter : Char} (speaks : letter ∈ ['N', 's', 'r']) :
      Fields.read (form.pattern.decode word) letter = .ok (instruction.value letter) := by
    obtain ⟨field, notFlag⟩ := (sound _ executes.member).conditions _ inside letter speaks
    obtain ⟨value, known⟩ := InstructionForm.exists_lookup_decode field word
    rw [Instruction.value, executes.lookup_form notFlag field, Fields.read, known]
    rfl
  simp only [InstructionForm.admitsOperand, InstructionForm.admitsBitmask,
    @read 'N' (by decide), @read 's' (by decide), @read 'r' (by decide), bind,
    Except.bind] at condition
  split at condition
  · exact absurd (Except.ok.inj condition) (by decide)
  · cases unpacked : LogicalImmediate.decode (instruction.value 'N') (instruction.value 's')
        (instruction.value 'r') (Execution.dataSize instruction) true with
    | none => simp [unpacked, pure, Except.pure] at condition
    | some masks => exact ⟨masks, rfl⟩

end Executes

open Execution in
/-- A decoded instruction completes, or it accesses memory out of bounds, which only loads and stores
do. -/
theorem ensures_perform {word address : Int} {instruction : Instruction}
    (decoded : Codec.a64.decode word address = .ok (some instruction)) (state : CoreState) :
    Ensures (fun fault => instruction.form.op.isTransfer = true ∧ fault.IsAccess)
      (perform instruction) (fun _ _ => True) state := by
  obtain ⟨executes, admitted⟩ := executes_of_decode decoded
  have offers {letters : List Char} := @Executes.offers _ _ _ _ executes letters
  have size : instruction.value 'x' < 2 ^ 2 := executes.value_lt (by decide)
  have accesses {steps : Execution Unit} (transfers : instruction.form.op.isTransfer = true)
      (completes : Ensures ExecutionFault.IsAccess steps (fun _ _ => True) state) :
      Ensures (fun fault => instruction.form.op.isTransfer = true ∧ fault.IsAccess) steps
        (fun _ _ => True) state :=
    completes.allow fun fault access => ⟨transfers, access⟩
  unfold perform
  cases op : instruction.form.op <;> rw [op] at offers accesses <;>
    simp only [ensures_sequential, ensures_pure]
  case addSubExtended => exact completes_addSubExtended (offers (by decide))
  case addSubShifted => exact completes_addSubShifted (offers (by decide))
  case addSubImmediate => exact completes_addSubImmediate (offers (by decide))
  case addSubCarry => exact completes_addSubCarry (offers (by decide))
  case logicShifted => exact completes_logicShifted (offers (by decide))
  case logicImmediate =>
    obtain ⟨unpacked, proper⟩ := executes.exists_logicMasks op rfl admitted
    exact completes_logicImmediate (offers (by decide)) proper
  case moveWide => exact completes_moveWide (offers (by decide))
  case bitfield =>
    obtain ⟨unpacked, proper⟩ := executes.exists_bitfieldMasks op admitted
    exact completes_bitfield (offers (by decide)) proper
  case extract => exact completes_extract (offers (by decide))
  case oneSource =>
    have code := executes.sourceCode (by rw [op]; decide)
    rw [op] at code
    exact completes_oneSource (offers (by decide)) code
  case twoSource =>
    have code := executes.sourceCode (by rw [op]; decide)
    rw [op] at code
    exact completes_twoSource (offers (by decide)) code
  case threeSource =>
    have code := executes.sourceCode (by rw [op]; decide)
    rw [op] at code
    exact completes_threeSource (offers (by decide)) code
  case pcRelative => exact completes_pcRelative (offers (by decide))
  case branchImmediate => exact completes_branchImmediate (offers (by decide))
  case branchConditional => exact completes_branchConditional (offers (by decide))
  case compareBranch => exact completes_compareBranch (offers (by decide))
  case testBranch => exact completes_testBranch (offers (by decide))
  case branchRegister => exact completes_branchRegister (offers (by decide))
  case transferScaled => exact accesses rfl (completes_scaled (offers (by decide)) size)
  case transferNear => exact accesses rfl (completes_near (offers (by decide)) size)
  case transferIndexed => exact accesses rfl (completes_indexed (offers (by decide)) size)
  case transferLiteral => exact accesses rfl (completes_literal (offers (by decide)))
  case transferPair => exact accesses rfl (completes_pair (offers (by decide)))
  case other name =>
    obtain ⟨executable, _⟩ := accepts_baseForm executes.member
    simp [op, Operation.executable] at executable

end InstructionSet

end A64Machine
