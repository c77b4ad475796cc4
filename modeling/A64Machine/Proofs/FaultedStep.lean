import A64Machine.Proofs.Memory
import A64Machine.Proofs.StepFaults

/-!
# What a step that faults leaves behind

A step that finds no instruction leaves the machine as it was. So does an instruction whose access
is out of bounds, since the access comes before everything else that the instruction changes; a base
is written back behind it. There is one exception. An instruction that transfers two registers makes
two accesses, and the second one may be out of bounds after the first one was made.
-/

namespace A64Machine

namespace CoreState

/-- Two states hold the same: all registers, the status, and the bytes and the origin of the memory.
The records of accesses may differ. -/
structure Same (before after : CoreState) : Prop where
  registers : after.registers.slots = before.registers.slots
  status : after.status = before.status
  endianness : after.memory.endianness = before.memory.endianness
  origin : after.memory.origin = before.memory.origin
  bytes : after.memory.bytes = before.memory.bytes

theorem Same.refl (state : CoreState) : state.Same state := ⟨rfl, rfl, rfl, rfl, rfl⟩

theorem Same.trans {first second third : CoreState} (one : first.Same second)
    (other : second.Same third) : first.Same third where
  registers := other.registers.trans one.registers
  status := other.status.trans one.status
  endianness := other.endianness.trans one.endianness
  origin := other.origin.trans one.origin
  bytes := other.bytes.trans one.bytes

theorem Same.symm {before after : CoreState} (same : before.Same after) : after.Same before :=
  ⟨same.registers.symm, same.status.symm, same.endianness.symm, same.origin.symm, same.bytes.symm⟩

theorem Same.value {before after : CoreState} (same : before.Same after) (slot : Int) :
    after.registers.value slot = before.registers.value slot := by
  rw [RegisterFile.value, RegisterFile.value, RegisterFile.peek?, RegisterFile.peek?,
    same.registers]

theorem Same.size {before after : CoreState} (same : before.Same after) :
    after.memory.size = before.memory.size := by
  rw [Memory.size, Memory.size, same.bytes]

/-- Reading a register changes the record at most. -/
theorem same_afterRead (state : CoreState) (slot : Nat) :
    state.Same { state with registers := state.registers.afterRead slot } := by
  refine ⟨?_, rfl, rfl, rfl, rfl⟩
  unfold RegisterFile.afterRead RegisterFile.recorded
  split <;> rfl

/-- One state follows another by the transfer of some bytes between an address and a register. A
load leaves the value of the bytes in the register, unless it is the zero register, which holds
zero; a store lays the lowest bytes of the register over those at the address. Everything else is as
before. -/
structure Transfers (before after : CoreState) (loads : Bool) (width address slot : Nat) : Prop where
  status : after.status = before.status
  endianness : after.memory.endianness = before.memory.endianness
  origin : after.memory.origin = before.memory.origin
  size : after.memory.size = before.memory.size
  registers : ∀ other : Nat, other < 32 → after.registers.value other =
    if loads ∧ other = Register.zeroSlot then 0
    else if loads ∧ other = slot then
      before.memory.endianness.valueOf (Memory.stretch before.memory.bytes address width)
    else before.registers.value other
  bytes : ∀ place : Nat, after.memory.bytes[place]? =
    if !loads ∧ address ≤ place ∧ place < address + width then
      (before.memory.endianness.bytesOf width (before.registers.value slot))[place - address]?
    else before.memory.bytes[place]?

end CoreState

/-! ### Both ends of an execution -/

namespace Execution

variable {α β : Type}

/-- From a state the execution completes with a value and a state that meet one condition, or it
ends early with a fault and a state that meet another one. -/
def Ends (execution : Execution α) (completed : α → CoreState → Prop)
    (faulted : ExecutionFault → CoreState → Prop) (state : CoreState) : Prop :=
  match execution state with
  | .ok value after => completed value after
  | .error fault after => faulted fault after

section Laws

variable {completed : α → CoreState → Prop} {faulted : ExecutionFault → CoreState → Prop}
  {state : CoreState}

theorem ends_bind {first : Execution β} {next : β → Execution α} :
    Ends (first >>= next) completed faulted state ↔
      Ends first (fun value after => Ends (next value) completed faulted after) faulted state := by
  show (match EStateM.bind first next state with
    | .ok value after => completed value after
    | .error fault after => faulted fault after) ↔ _
  unfold EStateM.bind Ends
  cases first state <;> rfl

/-- Conditions that follow from others are met with them. -/
theorem Ends.imp {execution : Execution α} {completed' : α → CoreState → Prop}
    {faulted' : ExecutionFault → CoreState → Prop} (ends : Ends execution completed faulted state)
    (done : ∀ value after, completed value after → completed' value after)
    (failed : ∀ fault after, faulted fault after → faulted' fault after) :
    Ends execution completed' faulted' state := by
  unfold Ends at *
  cases outcome : execution state with
  | ok value after => rw [outcome] at ends; exact done value after ends
  | error fault after => rw [outcome] at ends; exact failed fault after ends

/-- An execution that has no fault ends as it ensures. -/
theorem ends_of_ensures {execution : Execution α}
    (ensured : Ensures (fun _ => False) execution completed state) :
    Ends execution completed faulted state := by
  unfold Ensures at ensured
  unfold Ends
  cases outcome : execution state with
  | ok value after => rw [outcome] at ensured; exact ensured
  | error fault after => rw [outcome] at ensured; exact ensured.elim

end Laws

variable {instruction : Instruction} {state : CoreState}

theorem ends_field {completed : Nat → CoreState → Prop}
    {faulted : ExecutionFault → CoreState → Prop} {letter : Char}
    (present : instruction.fields.lookup letter = some (instruction.value letter)) :
    Ends (field instruction letter) completed faulted state ↔
      completed (instruction.value letter) state := by
  simp [Ends, field, Fields.read, present]

theorem ends_readField {completed : Nat → CoreState → Prop}
    {faulted : ExecutionFault → CoreState → Prop} {letter : Char} {size : Nat}
    (present : instruction.fields.lookup letter = some (instruction.value letter))
    (small : instruction.value letter < 32) :
    Ends (readField instruction letter size) completed faulted state ↔
      completed (state.registers.value (instruction.value letter) % 2 ^ size)
        { state with registers := state.registers.afterRead (instruction.value letter) } := by
  have read := state.registers.read?_of_lt small
  rw [readField, ends_bind, ends_field present]
  unfold Ends readRegister
  rw [read]

/-! ### Transfers -/

open Transfer

/-- A transfer of code 0 stores its register, if the access is within bounds. -/
theorem ends_transfer_store {width address slot : Nat} (named : slot < 32) (narrow : width ≤ 8) :
    Ends (transfer 0 width address slot)
      (fun _ after => address + width ≤ state.memory.size ∧
        state.Transfers after false width address slot)
      (fun fault after => ¬ address + width ≤ state.memory.size ∧
        fault = .memory (.outside address width state.memory.size) ∧ state.Same after) state := by
  rw [transfer, if_pos rfl, ends_bind]
  refine ends_of_ensures ((ensures_readRegister named).mpr ?_)
  rw [ends_bind]
  refine ends_of_ensures ((ensures_checkWidth narrow).mpr ?_)
  obtain ⟨log, written⟩ := state.memory.write_natCast address width
    (state.registers.value slot % 2 ^ min (8 * width) 64)
  unfold Ends store
  rw [written]
  by_cases fits : address + width ≤ state.memory.size
  · rw [if_pos fits]
    refine ⟨fits, rfl, rfl, rfl, Memory.size_overwrite .., fun other small =>
      RegisterFile.value_afterRead .., fun place => ?_⟩
    rw [Nat.min_eq_left (by omega), Endianness.bytesOf_mod,
      Memory.getElem?_overwrite _ (by rw [Endianness.length_bytesOf]; exact fits),
      Endianness.length_bytesOf]
    simp
  · rw [if_neg fits]
    exact ⟨fits, rfl, state.same_afterRead slot⟩

/-- A transfer of another code loads its register, if the access is within bounds. -/
theorem ends_transfer_load {code width address slot : Nat} (loads : code ≠ 0) (named : slot < 32) :
    Ends (transfer code width address slot)
      (fun _ after => address + width ≤ state.memory.size ∧
        (code = 1 → width ≤ 8 → state.Transfers after true width address slot))
      (fun fault after => ¬ address + width ≤ state.memory.size ∧
        fault = .memory (.outside address width state.memory.size) ∧ state.Same after) state := by
  rw [transfer, if_neg loads, ends_bind]
  obtain ⟨log, read⟩ := state.memory.read_natCast address width
  unfold Ends load
  rw [read]
  by_cases fits : address + width ≤ state.memory.size
  · rw [if_pos fits]
    refine ends_of_ensures ((ensures_writeRegister named).mpr ⟨fits, ?_⟩)
    rintro rfl narrow
    refine ⟨rfl, rfl, rfl, rfl, fun other small => ?_, fun place => by simp⟩
    have short := Memory.length_stretch_le state.memory.bytes address width
    have held := Nat.lt_of_lt_of_le (state.memory.endianness.valueOf_lt _)
      (Nat.pow_le_pow_right (by decide) (Nat.mul_le_mul_left 8 (Nat.le_trans short narrow)))
    refine (RegisterFile.value_afterWrite _ _ named small).trans ?_
    simp only [Bits.wrap_of_lt held, true_and]
  · rw [if_neg fits]
    exact ⟨fits, rfl, .refl state⟩

/-- An access was out of bounds, and everything is as it was. -/
def Refused (before : CoreState) (fault : ExecutionFault) (after : CoreState) : Prop :=
  ∃ address width : Nat, ¬ address + width ≤ before.memory.size ∧
    fault = .memory (.outside address width before.memory.size) ∧ before.Same after

/-- A transfer that fails leaves what it was given. -/
theorem ends_transfer {before : CoreState} (same : before.Same state)
    {code width address slot : Nat} (named : slot < 32) (narrow : width ≤ 8) :
    Ends (transfer code width address slot) (fun _ _ => True) (Refused before) state := by
  have refused (fault : ExecutionFault) (after : CoreState)
      (failed : ¬ address + width ≤ state.memory.size ∧
        fault = .memory (.outside address width state.memory.size) ∧ state.Same after) :
      Refused before fault after := by
    obtain ⟨outside, rfl, kept⟩ := failed
    rw [same.size] at outside ⊢
    exact ⟨address, width, outside, rfl, same.trans kept⟩
  rcases Nat.eq_zero_or_pos code with rfl | loads
  · exact (ends_transfer_store named narrow).imp (fun _ _ _ => trivial) refused
  · exact (ends_transfer_load (Nat.ne_of_gt loads) named).imp (fun _ _ _ => trivial) refused

theorem refused_scaled (offers : instruction.Offers ['x', 'n', 'I', 'c', 't'])
    (size : instruction.value 'x' < 4) :
    Ends (scaled instruction) (fun _ _ => True) (Refused state) state := by
  simp only [scaled, ends_bind, ends_field, ends_readField, offers.present, offers.registers,
    List.mem_cons, true_or, or_true]
  exact ends_transfer (state.same_afterRead _) (offers.registers 't' (by decide)) (width_le size)

theorem refused_near (offers : instruction.Offers ['x', 'n', 'I', 'w', 'c', 't'])
    (size : instruction.value 'x' < 4) :
    Ends (near instruction) (fun _ _ => True) (Refused state) state := by
  simp only [near, ends_bind, ends_field, ends_readField, offers.present, offers.registers,
    List.mem_cons, true_or, or_true]
  apply (ends_transfer (state.same_afterRead _) (offers.registers 't' (by decide))
    (width_le size)).imp _ fun _ _ failed => failed
  -- The base is written back behind the access, which was made.
  intro _ _ _
  exact ends_of_ensures (completes_writeBack (offers.mono (by decide)))

theorem refused_indexed (offers : instruction.Offers ['x', 'S', 'm', 'o', 'n', 'c', 't'])
    (size : instruction.value 'x' < 4) :
    Ends (indexed instruction) (fun _ _ => True) (Refused state) state := by
  simp only [indexed, ends_bind, ends_field, ends_readField, offers.present, offers.registers,
    List.mem_cons, true_or, or_true]
  apply ends_transfer _ (offers.registers 't' (by decide)) (width_le size)
  exact (state.same_afterRead _).trans (CoreState.same_afterRead _ _)

theorem refused_literal (offers : instruction.Offers ['I', 'c', 't']) :
    Ends (literal instruction) (fun _ _ => True) (Refused state) state := by
  simp only [literal, ends_bind, ends_field, offers.present, List.mem_cons, true_or, or_true]
  split <;> simp only [ends_bind, ends_field, offers.present, List.mem_cons, true_or, or_true]
  · exact ends_transfer (.refl state) (offers.registers 't' (by decide)) (by decide)
  · exact ends_transfer (.refl state) (offers.registers 't' (by decide)) (by split <;> decide)

end Execution

/-! ### Transfers of two registers -/

namespace CoreState

/-- A transfer between two states is one between states that hold the same. -/
theorem Transfers.congr {before before' after after' : CoreState} {loads : Bool}
    {width address slot : Nat} (transfers : before.Transfers after loads width address slot)
    (same : before'.Same before) (same' : after.Same after') :
    before'.Transfers after' loads width address slot where
  status := same'.status.trans (transfers.status.trans same.status)
  endianness := same'.endianness.trans (transfers.endianness.trans same.endianness)
  origin := same'.origin.trans (transfers.origin.trans same.origin)
  size := same'.size.trans (transfers.size.trans same.size)
  registers other small := by
    rw [same'.value, transfers.registers other small, same.value, same.endianness, same.bytes]
  bytes place := by
    rw [same'.bytes, transfers.bytes place, same.value, same.endianness, same.bytes]

end CoreState

namespace Transfer

/-- The address of the first access of a transfer of two registers. -/
def firstAddress (instruction : Instruction) (registers : RegisterFile) : Nat :=
  indexedAddress (instruction.value 'w') (registers.value (instruction.value 'n') % 2 ^ 64)
    (Bits.signExtend (instruction.value 'I') 7 * pairWidth instruction)

/-- The address of the second access, which comes right behind the first one. -/
def secondAddress (instruction : Instruction) (registers : RegisterFile) : Nat :=
  Bits.wrap 64 (firstAddress instruction registers + pairWidth instruction : Nat)

end Transfer

namespace Execution

open Transfer

variable {instruction : Instruction} {state : CoreState}

/-- How a transfer of two registers fails. If the first access is within bounds, it was made, and the
second one is not; otherwise everything is as it was. -/
def PairRefused (instruction : Instruction) (loads : Bool) (before : CoreState)
    (fault : ExecutionFault) (after : CoreState) : Prop :=
  if firstAddress instruction before.registers + pairWidth instruction ≤ before.memory.size then
    ¬ secondAddress instruction before.registers + pairWidth instruction ≤ before.memory.size ∧
      fault = .memory (.outside (secondAddress instruction before.registers)
        (pairWidth instruction) before.memory.size) ∧
      before.Transfers after loads (pairWidth instruction)
        (firstAddress instruction before.registers) (instruction.value 't')
  else
    fault = .memory (.outside (firstAddress instruction before.registers) (pairWidth instruction)
      before.memory.size) ∧ before.Same after

/-- Each access of a transfer of two registers is made, or it leaves everything as it was. -/
theorem ends_transfer_half {code width address slot : Nat} (named : slot < 32) (narrow : width ≤ 8) :
    Ends (transfer (if code ≠ 0 then 1 else 0) width address slot)
      (fun _ after => address + width ≤ state.memory.size ∧
        state.Transfers after (code != 0) width address slot)
      (fun fault after => ¬ address + width ≤ state.memory.size ∧
        fault = .memory (.outside address width state.memory.size) ∧ state.Same after) state := by
  by_cases loads : code = 0
  · subst loads
    exact ends_transfer_store named narrow
  · have loads' : (code != 0) = true := by simpa using loads
    rw [if_pos loads, loads']
    exact (ends_transfer_load Nat.one_ne_zero named).imp
      (fun _ _ done => ⟨done.1, done.2 rfl narrow⟩) fun _ _ failed => failed

theorem refused_pair (offers : instruction.Offers ['c', 'n', 'I', 'w', 'L', 't', 'u']) :
    Ends (pair instruction) (fun _ _ => True)
      (PairRefused instruction (instruction.value 'L' != 0) state) state := by
  simp only [pair, ends_bind, ends_field, ends_readField, offers.present, offers.registers,
    List.mem_cons, true_or, or_true]
  have narrow := pairWidth_le instruction
  have read := state.same_afterRead (instruction.value 'n')
  apply (ends_transfer_half (offers.registers 't' (by decide)) narrow).imp
  · rintro _ middle ⟨fits, made⟩
    apply (ends_transfer_half (offers.registers 'u' (by decide)) narrow).imp
    · intro _ _ _
      exact ends_of_ensures (completes_writeBack (offers.mono (by decide)))
    · rintro _ after ⟨outside, rfl, kept⟩
      unfold PairRefused
      rw [made.size] at outside ⊢
      exact (if_pos fits).mpr ⟨outside, rfl, made.congr read kept⟩
  · rintro _ after ⟨outside, rfl, kept⟩
    exact (if_neg outside).mpr ⟨rfl, read.trans kept⟩

/-- How an instruction fails that accesses memory out of bounds: a transfer of two registers may have
made its first access, and all others leave everything as it was. -/
def Interrupted (instruction : Instruction) (before : CoreState) (fault : ExecutionFault)
    (after : CoreState) : Prop :=
  if instruction.form.mnemonic = "ldp" then PairRefused instruction true before fault after
  else if instruction.form.mnemonic = "stp" then PairRefused instruction false before fault after
  else Refused before fault after

/-- What interrupts an execution is an access. -/
theorem exists_access_of_interrupted {before after : CoreState} {fault : ExecutionFault}
    (interrupted : Interrupted instruction before fault after) :
    ∃ access, fault = .memory access := by
  have pair {loads : Bool} (refused : PairRefused instruction loads before fault after) :
      ∃ access, fault = .memory access := by
    unfold PairRefused at refused
    split at refused
    · exact ⟨_, refused.2.1⟩
    · exact ⟨_, refused.1⟩
  unfold Interrupted at interrupted
  split at interrupted
  · exact pair interrupted
  · split at interrupted
    · exact pair interrupted
    · obtain ⟨_, _, _, failed, _⟩ := interrupted
      exact ⟨_, failed⟩

/-- What an interrupted execution leaves is said of all that the states hold. -/
theorem Interrupted.congr {before before' after after' : CoreState} {fault : ExecutionFault}
    (interrupted : Interrupted instruction before fault after) (same : before'.Same before)
    (same' : after.Same after') : Interrupted instruction before' fault after' := by
  have first : firstAddress instruction before.registers =
      firstAddress instruction before'.registers := by
    rw [firstAddress, firstAddress, same.value]
  have second : secondAddress instruction before.registers =
      secondAddress instruction before'.registers := by
    rw [secondAddress, secondAddress, first]
  have pair {loads : Bool} (refused : PairRefused instruction loads before fault after) :
      PairRefused instruction loads before' fault after' := by
    unfold PairRefused at refused ⊢
    rw [first, second, same.size] at refused
    split at refused
    · obtain ⟨outside, failed, made⟩ := refused
      exact (if_pos ‹_›).mpr ⟨outside, failed, made.congr same same'⟩
    · obtain ⟨failed, kept⟩ := refused
      exact (if_neg ‹_›).mpr ⟨failed, (same.trans kept).trans same'⟩
  unfold Interrupted at interrupted ⊢
  split at interrupted
  · exact (if_pos ‹_›).mpr (pair interrupted)
  · split at interrupted
    · exact (if_neg ‹_›).mpr ((if_pos ‹_›).mpr (pair interrupted))
    · obtain ⟨address, width, outside, failed, kept⟩ := interrupted
      rw [same.size] at outside failed
      exact (if_neg ‹_›).mpr ((if_neg ‹_›).mpr
        ⟨address, width, outside, failed, (same.trans kept).trans same'⟩)

end Execution

namespace InstructionSet

open BitPattern (positionsOf knownValue)
open Execution

/-- The mnemonics of two registers are those of one operation, and its form tells whether it loads. -/
theorem pairMnemonic : ∀ form ∈ forms,
    (form.op = .transferPair ↔ form.mnemonic = "ldp" ∨ form.mnemonic = "stp") ∧
    (form.op = .transferPair → ∀ wide,
      knownValue form.pattern.template wide (positionsOf 'L' (baseForm form.op)) =
        some (form.mnemonic == "ldp").toNat) := by
  decide +kernel

/-- The operations that access memory. -/
theorem transfer_cases {op : Operation} (transfers : op.isTransfer = true) :
    op = .transferScaled ∨ op = .transferNear ∨ op = .transferIndexed ∨ op = .transferLiteral ∨
      op = .transferPair := by
  cases op <;> first | contradiction | simp

/-- A decoded instruction completes or is interrupted. -/
theorem ends_perform {word address : Int} {instruction : Instruction}
    (decoded : Codec.a64.decode word address = .ok (some instruction)) (state : CoreState) :
    Ends (perform instruction) (fun _ _ => True) (Interrupted instruction state) state := by
  cases transfers : instruction.form.op.isTransfer with
  | false =>
    apply ends_of_ensures ((ensures_perform decoded state).allow _)
    intro fault allowed
    exact Bool.false_ne_true (transfers.symm.trans allowed.1)
  | true =>
    obtain ⟨executes, admitted⟩ := executes_of_decode decoded
    have offers {letters : List Char} := @Executes.offers _ _ _ _ executes letters
    have size : instruction.value 'x' < 2 ^ 2 := executes.value_lt (by decide)
    obtain ⟨isPair, loads⟩ := pairMnemonic instruction.form executes.member
    have one {steps : Execution Unit} (single : instruction.form.op ≠ .transferPair)
        (refused : Ends steps (fun _ _ => True) (Refused state) state) :
        Ends (sequential steps) (fun _ _ => True) (Interrupted instruction state) state := by
      obtain ⟨notLoad, notStore⟩ := not_or.mp fun named => single (isPair.mpr named)
      rw [sequential, ends_bind]
      apply refused.imp (fun _ _ _ => trivial)
      intro fault after refused
      rwa [Interrupted, if_neg notLoad, if_neg notStore]
    unfold perform
    rcases transfer_cases transfers with op | op | op | op | op <;>
      simp only [op] at offers one ⊢
    · exact one (by decide) (refused_scaled (offers (by decide)) size)
    · exact one (by decide) (refused_near (offers (by decide)) size)
    · exact one (by decide) (refused_indexed (offers (by decide)) size)
    · exact one (by decide) (refused_literal (offers (by decide)))
    · have direction := executes.lookup_of_known (by rw [op]; decide) (by decide) (loads op _)
      have code : (instruction.value 'L' != 0) = (instruction.form.mnemonic == "ldp") := by
        rw [Instruction.value, direction]
        cases instruction.form.mnemonic == "ldp" <;> rfl
      rw [sequential, ends_bind]
      apply (refused_pair (offers (by decide))).imp (fun _ _ _ => trivial)
      intro fault after refused
      unfold Interrupted
      rcases isPair.mp op with name | name <;> rw [code, name] at refused <;> rw [name] <;>
        exact refused

end InstructionSet

/-! ### Steps -/

/-- Whether a fault is one of finding an instruction: the program counter is misaligned or out of
bounds, or the word has no instruction. -/
def StepFault.IsFetch : StepFault → Prop
  | .memory (.misaligned _ _) | .memory (.pcOutside _ _) | .memory (.outsideOrigin _ _ _) => True
  | .undecodable _ _ => True
  | .memory _ | .defective _ => False

namespace CoreState

theorem same_withoutRecords (state : CoreState) : state.Same state.withoutRecords :=
  ⟨rfl, rfl, rfl, rfl, rfl⟩

theorem same_track (state : CoreState) (on : Bool) : state.Same (state.track on) :=
  ⟨rfl, rfl, rfl, rfl, rfl⟩

/-- Neither registers nor memory track accesses. -/
def Untracked (state : CoreState) : Prop :=
  state.registers.tracking = false ∧ state.memory.tracking = false

end CoreState

namespace Machine

open Execution InstructionSet

/-- Two machines are at the same place with the same state. -/
structure Same (before after : Machine) : Prop where
  pc : after.pc = before.pc
  steps : after.steps = before.steps
  core : before.core.Same after.core

/-- What is fetched was decoded from a word. -/
theorem decoded_of_fetch {machine fetched : Machine} (kept : machine.KeepsDecoded)
    {instruction : Instruction} (found : machine.fetch = .ok (instruction, fetched)) :
    ∃ word address : Int, Codec.a64.decode word address = .ok (some instruction) := by
  rcases fetch_cases kept with ⟨other, next, found', _, decoded⟩ | ⟨fault, failed, _⟩
  · rw [found] at found'
    obtain ⟨rfl, _⟩ := Prod.mk.inj (Except.ok.inj found')
    exact decoded
  · rw [found] at failed
    contradiction

/-- A word without an instruction is the only fault of reading one. -/
theorem isFetch_of_instructionOf {address word : Nat} {fault : StepFault}
    (failed : instructionOf address word = .error fault) : fault.IsFetch := by
  obtain ⟨found, decoded⟩ := exists_decode_eq_ok word address
  rw [instructionOf, decoded] at failed
  cases found with
  | none =>
    rw [← Except.error.inj failed]
    trivial
  | some instruction => contradiction

/-- The faults of a fetch are those of finding an instruction. -/
theorem isFetch_of_fetch {machine : Machine} {fault : StepFault}
    (failed : machine.fetch = .error fault) : fault.IsFetch := by
  unfold fetch at failed
  simp only at failed
  split at failed
  · rw [← Except.error.inj failed]
    trivial
  · split at failed
    · rw [← Except.error.inj failed]
      trivial
    · contradiction
    · split at failed
      · rename_i bounds peeked
        unfold Memory.peekOrigin at peeked
        split at peeked
        · contradiction
        · rw [← Except.error.inj failed, ← Except.error.inj peeked]
          trivial
      · rename_i word _
        cases read : instructionOf machine.pc word with
        | error other =>
          rw [read] at failed
          rw [← Except.error.inj failed]
          exact isFetch_of_instructionOf read
        | ok decoded =>
          rw [read] at failed
          contradiction

/-- Where an instruction faults that was decoded from a word, it is interrupted by an access. -/
theorem executeFetched_interrupted {machine : Machine} {notify : Bool} {word address : Int}
    {instruction : Instruction}
    (decoded : Codec.a64.decode word address = .ok (some instruction)) {fault : StepFault}
    (failed : (machine.executeFetched notify instruction).1 = .error fault) :
    ∃ access : MemoryFault, fault = .memory access ∧
      (machine.executeFetched notify instruction).2.pc = machine.pc ∧
      (machine.executeFetched notify instruction).2.steps = machine.steps ∧
      Interrupted instruction machine.core (.memory access)
        (machine.executeFetched notify instruction).2.core := by
  have ended := ends_perform decoded (machine.core.track notify)
  obtain ⟨text, written⟩ := exists_text decoded
  unfold executeFetched CoreState.execute at *
  unfold Ends at ended
  cases outcome : perform instruction (machine.core.track notify) with
  | ok target core =>
    simp [outcome, complete, symbolInfo, written, Except.map] at failed
  | error other core =>
    rw [outcome] at ended
    simp only [outcome, true_and] at failed ⊢
    obtain ⟨access, rfl⟩ := exists_access_of_interrupted ended
    refine ⟨access, (Except.error.inj failed).symm, ?_⟩
    exact ended.congr (machine.core.same_track notify) (core.same_track false)

/-- After an instruction nothing is tracked. -/
theorem untracked_executeFetched (machine : Machine) (notify : Bool) (instruction : Instruction) :
    (machine.executeFetched notify instruction).2.core.Untracked := by
  unfold executeFetched
  rcases (machine.core.track notify).execute instruction with ⟨outcome, core⟩
  cases outcome with
  | error fault => exact ⟨rfl, rfl⟩
  | ok target =>
    simp only [complete]
    split <;> cases notify <;> exact ⟨rfl, rfl⟩

/-- A step that faults leaves the machine where it was. If it finds no instruction, everything is as
it was. If it faults while an instruction is executed, that is an access out of bounds; the program
counter and the number of steps are as they were, and so are status, registers and memory, with one
exception: `ldp` and `stp` whose first access is within bounds have made that one and nothing else.
Whether the step faults or not, accesses are not tracked behind it if they were not before it. -/
theorem step_faulted {machine : Machine} (kept : machine.KeepsDecoded) (notify : Bool) :
    (∀ fault, (machine.step notify).1 = .error fault →
      (machine.fetch = .error fault ∧ fault.IsFetch ∧ machine.Same (machine.step notify).2) ∨
      ∃ instruction fetched access, machine.fetch = .ok (instruction, fetched) ∧
        fault = .memory access ∧
        (machine.step notify).2.pc = machine.pc ∧ (machine.step notify).2.steps = machine.steps ∧
        Interrupted instruction machine.core (.memory access) (machine.step notify).2.core) ∧
    (machine.core.Untracked → (machine.step notify).2.core.Untracked) := by
  cases found : machine.fetch with
  | error fault =>
    rw [step_of_fetch_error found]
    refine ⟨?_, id⟩
    rintro _ ⟨⟩
    exact .inl ⟨rfl, isFetch_of_fetch found, rfl, rfl, machine.core.same_withoutRecords⟩
  | ok both =>
    obtain ⟨instruction, fetched⟩ := both
    obtain ⟨samePc, sameSteps, sameCore⟩ := fetch_keeps found
    obtain ⟨word, address, decoded⟩ := decoded_of_fetch kept found
    rw [step_of_fetch found]
    refine ⟨fun fault failed => .inr ?_, fun _ => untracked_executeFetched ..⟩
    obtain ⟨access, same, pc, steps, interrupted⟩ := executeFetched_interrupted decoded failed
    refine ⟨instruction, fetched, access, rfl, same, pc.trans samePc, steps.trans sameSteps, ?_⟩
    exact interrupted.congr (sameCore ▸ fetched.core.same_withoutRecords) (.refl _)

/-- A machine with an `ldp x0, x1, [x2]` at the start of twelve bytes, so that the first eight bytes
are loaded and the next eight are out of bounds. -/
def pairAtEnd : Machine :=
  ofMemory (.ofBytes .little #[0x40, 0x04, 0x40, 0xa9, 1, 2, 3, 4, 5, 6, 7, 8])

/-- The step leaves `x0` loaded and everything else as it was. -/
theorem step_faulted_pairAtEnd :
    pairAtEnd.KeepsDecoded ∧ (pairAtEnd.step true).1 = .error (.memory (.outside 8 8 12)) ∧
      (pairAtEnd.step true).2.pc = 0 ∧
      (pairAtEnd.step true).2.core.registers.value 0 = 0x04030201a9400440 ∧
      (pairAtEnd.step true).2.core.registers.value 1 = 0 := by
  have kept : pairAtEnd.KeepsDecoded := keepsDecoded_of_undecoded rfl
  obtain ⟨instruction, decoded, op, name⟩ := @exists_decode_of_first 0xa9400440 0 .transferPair "ldp"
    (by decide +kernel)
  obtain ⟨executes, _⟩ := executes_of_decode decoded
  have read := executes.fields
  rw [op, show (BitPattern.ofTemplate (baseForm .transferPair)).decode
    (Instruction.wordBits 0xa9400440) = [('c', 2), ('w', 2), ('L', 1), ('I', 0), ('u', 1), ('n', 2),
      ('t', 0)] by decide +kernel] at read
  have executed : ((pairAtEnd.core.withoutRecords.track true).execute instruction).1 =
      .error (.memory (.outside 8 8 12)) := by
    obtain ⟨address, word, form, fields, bound⟩ := instruction
    simp only at op read
    subst read
    simp only [CoreState.execute, perform, op]
    rfl
  have fetched := @fetch_of_decode pairAtEnd 0xa9400440 instruction (by decide) rfl rfl decoded
  have stepped : (pairAtEnd.step true).1 = .error (.memory (.outside 8 8 12)) :=
    congrArg Prod.fst (step_of_execute_error fetched executed)
  rcases (step_faulted kept true).1 _ stepped with
    ⟨failed, _⟩ | ⟨_, _, access, found, same, samePc, _, interrupted⟩
  · rw [fetched] at failed
    cases failed
  · rw [fetched] at found
    obtain ⟨rfl, _⟩ := Prod.mk.inj (Except.ok.inj found)
    rw [Interrupted, if_pos name, PairRefused] at interrupted
    have first : Transfer.firstAddress instruction pairAtEnd.core.registers = 0 := by
      simp only [Transfer.firstAddress, Transfer.pairWidth, Instruction.value, read]
      rfl
    have width : Transfer.pairWidth instruction = 8 := by
      simp only [Transfer.pairWidth, Instruction.value, read]
      rfl
    have slot : instruction.value 't' = 0 := by
      rw [Instruction.value, read]
      rfl
    rw [first, width, if_pos (by decide), slot] at interrupted
    obtain ⟨_, _, made⟩ := interrupted
    exact ⟨kept, stepped, samePc, made.registers 0 (by decide), made.registers 1 (by decide)⟩

end Machine

end A64Machine
