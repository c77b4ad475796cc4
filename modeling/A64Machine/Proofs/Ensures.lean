import A64Machine.Execute
import A64Machine.Proofs.Bits

/-!
# What an execution ensures

An execution ensures a condition on its result and the state that it leaves, up to faults that are
allowed. Each primitive step has one law, which says what has to hold before it, so what a whole
instruction does is computed from its definition back to front. The laws are equivalences: nothing
is lost on the way, and a fault that is not allowed shows up as a condition that cannot be met.
-/

namespace A64Machine

/-! ### Registers -/

namespace RegisterFile

/-- The numbers of slots name them. -/
theorem slot?_of_lt {slot : Nat} (small : slot < 32) : slot? slot = some ⟨slot, small⟩ := by
  have notNegative : ¬ (slot : Int) < 0 := by omega
  have inside : 0 ≤ (slot : Int) ∧ (slot : Int) < 32 := by omega
  simp [slot?, notNegative, inside]

/-- The value of a slot is what stands in it. -/
theorem value_of_lt (file : RegisterFile) {slot : Nat} (small : slot < 32) :
    file.value slot = file.slots[slot] := by
  rw [value, peek?, slot?_of_lt small]
  rfl

/-- A record of an access changes no value. -/
@[simp] theorem value_recorded (file : RegisterFile) (kind : AccessKind) (number : Int)
    (before after : Nat) (slot : Int) :
    (file.recorded kind number before after).value slot = file.value slot := by
  unfold recorded
  split <;> rfl

/-- The registers after a slot was read. -/
def afterRead (file : RegisterFile) (slot : Nat) : RegisterFile :=
  file.recorded .read slot (file.value slot) (file.value slot)

/-- Reading changes no value. -/
@[simp] theorem value_afterRead (file : RegisterFile) (slot : Nat) (other : Int) :
    (file.afterRead slot).value other = file.value other :=
  value_recorded ..

/-- A slot can be read. -/
theorem read?_of_lt (file : RegisterFile) {slot : Nat} (small : slot < 32) :
    file.read? slot = some (file.value slot, file.afterRead slot) := by
  rw [read?, afterRead, value, peek?, slot?_of_lt small]
  rfl

/-- The registers after a value was written to a slot. -/
def afterWrite (file : RegisterFile) (slot : Nat) (value : Int) : RegisterFile :=
  (file.write? slot value).getD file

/-- A slot can be written. -/
theorem write?_of_lt (file : RegisterFile) {slot : Nat} (value : Int) (small : slot < 32) :
    file.write? slot value = some (file.afterWrite slot value) := by
  rw [afterWrite, write?, slot?_of_lt small]
  rfl

/-- A write reaches the slot that it names and clears the zero register. -/
theorem value_afterWrite (file : RegisterFile) {slot other : Nat} (value : Int) (small : slot < 32)
    (small' : other < 32) :
    (file.afterWrite slot value).value other =
      if other = Register.zeroSlot then 0
      else if other = slot then Bits.wrap 64 value
      else file.value other := by
  rw [afterWrite, write?, slot?_of_lt small, Option.map_some, Option.getD_some, value_recorded,
    value_of_lt _ small', value_of_lt _ small']
  simp only [Vector.getElem_set, eq_comm (b := other)]

/-- What a register holds after a value was written to it. -/
def kept (slot : Nat) (value : Int) : Nat :=
  if slot = Register.zeroSlot then 0 else Bits.wrap 64 value

/-- A register that was written holds the value. -/
theorem value_written (file : RegisterFile) {slot : Nat} (value : Int) (small : slot < 32) :
    (file.afterWrite slot (Bits.wrap 64 value)).value slot = kept slot value := by
  rw [value_afterWrite _ _ small small, if_pos rfl, kept, Bits.wrap_of_lt (Bits.wrap_lt 64 value)]

end RegisterFile

/-- The value of a register at its width. -/
def CoreState.contents (state : CoreState) (register : Register) : Nat :=
  state.registers.value register.slot % 2 ^ InstructionForm.dataSize register.wide

/-! ### The laws -/

namespace Execution

variable {α β : Type}

/-- From a state the execution completes with a value and a state that meet the condition, or it
ends early with a fault that is allowed. -/
def Ensures (allowed : ExecutionFault → Prop) (execution : Execution α)
    (condition : α → CoreState → Prop) (state : CoreState) : Prop :=
  match execution state with
  | .ok value after => condition value after
  | .error fault _ => allowed fault

section Laws

variable {allowed : ExecutionFault → Prop} {condition : α → CoreState → Prop} {state : CoreState}

@[simp] theorem ensures_pure {value : α} :
    Ensures allowed (pure value) condition state ↔ condition value state :=
  Iff.rfl

@[simp] theorem ensures_throw {fault : ExecutionFault} :
    Ensures allowed (throw fault) condition state ↔ allowed fault :=
  Iff.rfl

@[simp] theorem ensures_bind {first : Execution β} {next : β → Execution α} :
    Ensures allowed (first >>= next) condition state ↔
      Ensures allowed first (fun value after => Ensures allowed (next value) condition after)
        state := by
  show (match EStateM.bind first next state with
    | .ok value after => condition value after
    | .error fault _ => allowed fault) ↔ _
  unfold EStateM.bind Ensures
  cases first state <;> rfl

@[simp] theorem ensures_map {first : Execution β} {f : β → α} :
    Ensures allowed (f <$> first) condition state ↔
      Ensures allowed first (fun value after => condition (f value) after) state := by
  rw [map_eq_pure_bind, ensures_bind]
  rfl

@[simp] theorem ensures_ite {choice : Prop} [Decidable choice] {one other : Execution α} :
    Ensures allowed (if choice then one else other) condition state ↔
      if choice then Ensures allowed one condition state
      else Ensures allowed other condition state := by
  split <;> rfl

/-- A condition that follows from another one is ensured with it. -/
theorem Ensures.imp {execution : Execution α} {stronger : α → CoreState → Prop}
    (ensured : Ensures allowed execution stronger state)
    (implied : ∀ value after, stronger value after → condition value after) :
    Ensures allowed execution condition state := by
  unfold Ensures at *
  cases outcome : execution state with
  | ok value after => rw [outcome] at ensured; exact implied value after ensured
  | error fault after => rw [outcome] at ensured; exact ensured

/-- More faults may be allowed. -/
theorem Ensures.allow {execution : Execution α} {more : ExecutionFault → Prop}
    (ensured : Ensures allowed execution condition state)
    (allows : ∀ fault, allowed fault → more fault) :
    Ensures more execution condition state := by
  unfold Ensures at *
  cases outcome : execution state with
  | ok value after => rw [outcome] at ensured; exact ensured
  | error fault after => rw [outcome] at ensured; exact allows fault ensured

end Laws

section Primitives

variable {allowed : ExecutionFault → Prop} {state : CoreState}

/-- A field that the instruction has is read. -/
theorem ensures_field {condition : Nat → CoreState → Prop} {instruction : Instruction}
    {letter : Char} {value : Nat} (known : instruction.fields.lookup letter = some value) :
    Ensures allowed (field instruction letter) condition state ↔ condition value state := by
  simp [Ensures, field, Fields.read, known]

/-- A register is read. -/
theorem ensures_readRegister {condition : Nat → CoreState → Prop} {slot size : Nat}
    (small : slot < 32) :
    Ensures allowed (readRegister slot size) condition state ↔
      condition (state.registers.value slot % 2 ^ size)
        { state with registers := state.registers.afterRead slot } := by
  have read := state.registers.read?_of_lt small
  unfold Ensures readRegister
  rw [read]

/-- A register is written. -/
theorem ensures_writeRegister {condition : Unit → CoreState → Prop} {slot size : Nat} {value : Int}
    (small : slot < 32) :
    Ensures allowed (writeRegister slot value size) condition state ↔
      condition ()
        { state with registers := state.registers.afterWrite slot (Bits.wrap size value) } := by
  have written := state.registers.write?_of_lt (Bits.wrap size value) small
  unfold Ensures writeRegister
  rw [written]

/-- The register of a field is read. -/
theorem ensures_readField {condition : Nat → CoreState → Prop} {instruction : Instruction}
    {letter : Char} {slot size : Nat} (known : instruction.fields.lookup letter = some slot)
    (small : slot < 32) :
    Ensures allowed (readField instruction letter size) condition state ↔
      condition (state.registers.value slot % 2 ^ size)
        { state with registers := state.registers.afterRead slot } := by
  rw [readField, ensures_bind, ensures_field known, ensures_readRegister small]

/-- The register of a field is written. -/
theorem ensures_writeField {condition : Unit → CoreState → Prop} {instruction : Instruction}
    {letter : Char} {slot size : Nat} {value : Int}
    (known : instruction.fields.lookup letter = some slot) (small : slot < 32) :
    Ensures allowed (writeField instruction letter value size) condition state ↔
      condition ()
        { state with registers := state.registers.afterWrite slot (Bits.wrap size value) } := by
  rw [writeField, ensures_bind, ensures_field known, ensures_writeRegister small]

@[simp] theorem ensures_flags {condition : Flags → CoreState → Prop} :
    Ensures allowed flags condition state ↔ condition state.status.flags state :=
  Iff.rfl

@[simp] theorem ensures_setFlags {condition : Unit → CoreState → Prop} {flags : Flags} :
    Ensures allowed (setFlags flags) condition state ↔
      condition () { state with status := .ofFlags flags } :=
  Iff.rfl

/-- The value of an access can be held. -/
theorem ensures_checkWidth {condition : Unit → CoreState → Prop} {width : Nat} (small : width ≤ 8) :
    Ensures allowed (checkWidth width) condition state ↔ condition () state := by
  have held : Arithmetic.checkLength (8 * width) = .ok () := by
    have most : 64 < Arithmetic.heldLength := by decide
    have longest : Arithmetic.heldLength ≤ Arithmetic.longestLength := by decide
    rw [Arithmetic.checkLength, if_neg (by omega), if_neg (by omega)]
  simp [Ensures, checkWidth, held]

@[simp] theorem ensures_load {condition : Nat → CoreState → Prop} {address width : Nat} :
    Ensures allowed (load address width) condition state ↔
      match state.memory.read address width with
      | .ok (value, memory) => condition value { state with memory := memory }
      | .error fault => allowed (.memory fault) := by
  unfold Ensures load
  cases state.memory.read address width <;> rfl

@[simp] theorem ensures_store {condition : Unit → CoreState → Prop} {address width value : Nat} :
    Ensures allowed (store address width value) condition state ↔
      match state.memory.write address width value with
      | .ok memory => condition () { state with memory := memory }
      | .error fault => allowed (.memory fault) := by
  unfold Ensures store
  cases state.memory.write address width value <;> rfl

@[simp] theorem ensures_sequential {steps : Execution Unit}
    {condition : Option Nat → CoreState → Prop} :
    Ensures allowed (sequential steps) condition state ↔
      Ensures allowed steps (fun _ after => condition none after) state :=
  ensures_bind

end Primitives

section Transfer

variable {allowed : ExecutionFault → Prop} {condition : Unit → CoreState → Prop} {state : CoreState}
  {width address slot : Nat}

/-- A transfer of code 0 stores the lowest bytes of its register. -/
theorem ensures_transfer_store (small : slot < 32) (narrow : width ≤ 8) :
    Ensures allowed (Transfer.transfer 0 width address slot) condition state ↔
      match state.memory.write address width
          (state.registers.value slot % 2 ^ min (8 * width) 64 : Nat) with
      | .ok memory =>
        condition () { state with registers := state.registers.afterRead slot, memory := memory }
      | .error fault => allowed (.memory fault) := by
  rw [Transfer.transfer, if_pos rfl, ensures_bind, ensures_readRegister small, ensures_bind,
    ensures_checkWidth narrow, ensures_store]

/-- What a load of some bytes makes of their value: it extends the sign to full width or to half
width, or leaves the value as it is. -/
def loaded (code width value : Nat) : Int :=
  match code with
  | 2 => Bits.wrap 64 (Bits.signExtend value (8 * width))
  | 3 => Bits.wrap 32 (Bits.signExtend value (8 * width))
  | _ => value

/-- A transfer of another code loads its register. -/
theorem ensures_transfer_load {code : Nat} (loads : code ≠ 0) (small : slot < 32) :
    Ensures allowed (Transfer.transfer code width address slot) condition state ↔
      match state.memory.read address width with
      | .ok (value, memory) =>
        condition ()
          { state with
            memory := memory
            registers :=
              state.registers.afterWrite slot (Bits.wrap 64 (loaded code width value)) }
      | .error fault => allowed (.memory fault) := by
  rw [Transfer.transfer, if_neg loads, ensures_bind, ensures_load]
  split
  · exact ensures_writeRegister small
  · rfl

end Transfer

end Execution

/-- Executing an instruction gives what its steps ensure. -/
theorem CoreState.execute_iff {instruction : Instruction} {state : CoreState}
    {allowed : ExecutionFault → Prop} {condition : Option Nat → CoreState → Prop} :
    Execution.Ensures allowed (Execution.perform instruction) condition state ↔
      match state.execute instruction with
      | (.ok target, after) => condition target after
      | (.error fault, _) => allowed fault := by
  unfold Execution.Ensures CoreState.execute
  cases Execution.perform instruction state <;> rfl

end A64Machine
