import A64Machine.Arithmetic
import A64Machine.Decode
import A64Machine.Flags
import A64Machine.Memory
import A64Machine.RegisterFile

/-!
# Execution steps

The state that an instruction works on, the ways in which its execution can end early, and the
steps that instructions are made of. What a step has done stays done when a later one fails.
-/

namespace A64Machine

/-- Registers, status and memory. -/
structure CoreState where
  registers : RegisterFile
  status : Status
  memory : Memory

/-- Why an execution ends early. All but memory faults are defects of a table. -/
inductive ExecutionFault where
  | memory (fault : MemoryFault)
  | defective (defect : TableDefect)
  | absentRegister (slot : Nat)
  | unsupportedCode (sources code : Nat)
  | reservedMask
  | width (error : ArithmeticError)
  | unknownOperation (name : String)
  deriving DecidableEq, Repr

/-- The text of an operation code that no instruction has. -/
def unsupportedCodeMessage (sources code : Nat) : String :=
  "Unsupported data-processing (" ++ Text.decimal sources ++ " source) opcode " ++
    Text.binary (if sources = 3 then 5 else 8) code

/-- An execution: a result or a fault, and in either case the state that it leaves. -/
abbrev Execution := EStateM ExecutionFault CoreState

namespace Execution

/-- The value of a field of the instruction. -/
def field (instruction : Instruction) (letter : Char) : Execution Nat := fun state =>
  match instruction.fields.read letter with
  | .ok value => .ok value state
  | .error defect => .error (.defective defect) state

/-- The data size in bits, which is 64 unless the width flag says otherwise. -/
def dataSize (instruction : Instruction) : Nat :=
  InstructionForm.dataSize ((instruction.fields.lookup 'z').getD 1 != 0)

/-- Reads a register and keeps the lowest `size` bits. -/
def readRegister (slot : Nat) (size : Nat) : Execution Nat := fun state =>
  match state.registers.read? slot with
  | some (value, registers) => .ok (value % 2 ^ size) { state with registers := registers }
  | none => .error (.absentRegister slot) state

/-- Writes the lowest `size` bits of a value to a register and clears those above. -/
def writeRegister (slot : Nat) (value : Int) (size : Nat) : Execution Unit := fun state =>
  match state.registers.write? slot (Bits.wrap size value) with
  | some registers => .ok () { state with registers := registers }
  | none => .error (.absentRegister slot) state

/-- The register that a field names. -/
def readField (instruction : Instruction) (letter : Char) (size : Nat) : Execution Nat := do
  readRegister (← field instruction letter) size

/-- Writes the register that a field names. -/
def writeField (instruction : Instruction) (letter : Char) (value : Int) (size : Nat) :
    Execution Unit := do
  writeRegister (← field instruction letter) value size

/-- The flags. -/
def flags : Execution Flags := fun state => .ok state.status.flags state

/-- Sets the flags, which leaves nothing above them. -/
def setFlags (flags : Flags) : Execution Unit := fun state =>
  .ok () { state with status := .ofFlags flags }

/-- Checks that a number can be as long as some bytes. -/
def checkWidth (width : Nat) : Execution Unit := fun state =>
  match Arithmetic.checkLength (8 * width) with
  | .ok () => .ok () state
  | .error error => .error (.width error) state

/-- Reads a value of some bytes from memory. -/
def load (address width : Nat) : Execution Nat := fun state =>
  match state.memory.read address width with
  | .ok (value, memory) => .ok value { state with memory := memory }
  | .error fault => .error (.memory fault) state

/-- Writes a value of some bytes to memory. -/
def store (address width value : Nat) : Execution Unit := fun state =>
  match state.memory.write address width value with
  | .ok memory => .ok () { state with memory := memory }
  | .error fault => .error (.memory fault) state

end Execution

end A64Machine
