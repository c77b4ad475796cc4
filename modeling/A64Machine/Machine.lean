import A64Machine.Execute
import A64Machine.Disassembly
import A64Machine.Observer
import A64Machine.SymbolMap

/-!
# The machine

A machine executes one instruction at a step. Instructions are decoded from the origin of the
memory and kept for the next time that the program counter comes by, so a store into code never
changes what is executed; what is kept is dropped when a new origin is loaded. A step that
notifies records its accesses and tells the observer of them.
-/

namespace A64Machine

/-- Why a step has no result. A fault of memory occurs at the fetch or while the instruction is
executed; a defect can occur only with tables other than that of the machine. -/
inductive StepFault where
  | memory (fault : MemoryFault)
  | undecodable (address word : Nat)
  | defective (fault : ExecutionFault)
  deriving DecidableEq, Repr

namespace StepFault

/-- The fault of a step whose execution ended early. -/
def ofExecution : ExecutionFault → StepFault
  | .memory fault => .memory fault
  | fault => .defective fault

/-- The fault of a step whose instruction reveals a defect of its table. -/
def ofDefect (defect : TableDefect) : StepFault := .defective (.defective defect)

end StepFault

/-- What a step did: the program counter before and after it, the instruction, the number of
steps so far, the instruction's text behind the label of its address, and the accesses of
registers followed by those of memory. -/
structure Snapshot where
  oldPc : Nat
  newPc : Nat
  instruction : Instruction
  stepCount : Nat
  symbolInfo : String
  accesses : List Access

namespace Snapshot

/-- The accesses of memory. -/
def memoryAccesses (snapshot : Snapshot) : List Access :=
  snapshot.accesses.filter Access.isMemory

/-- The accesses of memory of one kind. -/
def memoryAccessesOf (snapshot : Snapshot) (kind : AccessKind) : List Access :=
  snapshot.memoryAccesses.filter fun access => access.kind == kind

/-- The accesses of registers. -/
def registerAccesses (snapshot : Snapshot) : List Access :=
  snapshot.accesses.filter fun access => !access.isMemory

/-- The accesses of registers of one kind. -/
def registerAccessesOf (snapshot : Snapshot) (kind : AccessKind) : List Access :=
  snapshot.registerAccesses.filter fun access => access.kind == kind

/-- Whether the instruction halts the machine. -/
def isHalt (snapshot : Snapshot) : Bool := snapshot.instruction.form.mnemonic == "hlt"

/-- Whether the step left the program counter where it was. -/
def isSelfBranch (snapshot : Snapshot) : Bool := snapshot.oldPc == snapshot.newPc

end Snapshot

/-- A machine: the program counter, registers, status and memory, the number of steps, the
symbols that name addresses, the observer, and the decoded instructions with the size of the
memory that they were made for. -/
structure Machine where
  pc : Nat
  core : CoreState
  steps : Nat
  symbols : SymbolMap
  observer : Option Observer
  decoded : Array (Option Instruction)
  decodedSize : Nat

namespace CoreState

/-- The state with the records of registers and memory emptied. -/
def withoutRecords (state : CoreState) : CoreState :=
  { state with registers := state.registers.takeLog.2, memory := state.memory.takeLog.2 }

/-- The state with the tracking of registers and memory switched. -/
def track (state : CoreState) (on : Bool) : CoreState :=
  { state with
    registers := { state.registers with tracking := on }
    memory := { state.memory with tracking := on } }

/-- The accesses on record, those of registers first. -/
def accesses (state : CoreState) : List Access := state.registers.log ++ state.memory.log

/-- The state after a reset: all registers zero, all flags clear, memory as its origin. -/
def reset (state : CoreState) : CoreState := ⟨.initial, .clear, state.memory.reset⟩

end CoreState

namespace Machine

/-- Room for the instructions of a memory, none of which is decoded yet. -/
def undecoded (size : Nat) : Array (Option Instruction) :=
  Array.replicate (size / Instruction.byteLength) none

/-- A machine at the start of its memory, with all registers zero and all flags clear. -/
def ofMemory (memory : Memory) : Machine where
  pc := 0
  core := ⟨.initial, .clear, memory⟩
  steps := 0
  symbols := []
  observer := none
  decoded := undecoded memory.size
  decodedSize := memory.size

/-- A machine for instructions of a given width, of which only four bytes is supported. -/
def create (memory : Memory) (instructionWidth : Int) : Except SetupError Machine :=
  if instructionWidth ≠ Instruction.byteLength then .error (.instructionWidth instructionWidth)
  else .ok (ofMemory memory)

/-- The machine with its decoded instructions dropped. -/
def dropDecoded (machine : Machine) : Machine :=
  let size := machine.core.memory.size
  { machine with decoded := undecoded size, decodedSize := size }

/-- The machine back at its start. Decoded instructions are kept unless the size of the memory
has changed. -/
def reset (machine : Machine) : Machine :=
  let machine := { machine with pc := 0, core := machine.core.reset, steps := 0 }
  if machine.core.memory.size ≠ machine.decodedSize then machine.dropDecoded else machine

/-- The machine at its start with a new origin, which may not be empty. -/
def loadOrigin (machine : Machine) (image : Array UInt8) : Except SetupError Machine :=
  (machine.core.memory.loadOrigin image).map fun memory =>
    { machine with core := { machine.core with memory := memory } }.dropDecoded.reset

/-- What a step makes of the result of decoding a word. -/
def outcomeOf (address word : Nat) :
    Except TableDefect (Option Instruction) → Except StepFault Instruction
  | .error defect => .error (.ofDefect defect)
  | .ok none => .error (.undecodable address word)
  | .ok (some instruction) => .ok instruction

/-- The instruction of a word at an address. -/
def instructionOf (address word : Nat) : Except StepFault Instruction :=
  outcomeOf address word (Codec.a64.decode word address)

/-- The instruction at the program counter, which is decoded from the origin unless it is known
already, and the machine that knows it. -/
def fetch (machine : Machine) : Except StepFault (Instruction × Machine) :=
  let pc := machine.pc
  if pc % Instruction.byteLength ≠ 0 then .error (.memory (.misaligned pc Instruction.byteLength))
  else
    let index := pc / Instruction.byteLength
    match machine.decoded[index]? with
    | none => .error (.memory (.pcOutside pc machine.core.memory.size))
    | some (some instruction) => .ok (instruction, machine)
    | some none =>
      match machine.core.memory.peekOrigin pc Instruction.byteLength with
      | .error fault => .error (.memory fault)
      | .ok word =>
        (instructionOf pc word).map fun instruction =>
          (instruction,
            { machine with decoded := machine.decoded.setIfInBounds index (some instruction) })

/-- The text of an instruction behind the label of an address. -/
def symbolInfo (machine : Machine) (address : Nat) (instruction : Instruction) :
    Except TableDefect String :=
  instruction.text.map fun text =>
    match machine.symbols.nameAt? address with
    | none => text
    | some name => if name.isEmpty then text else name ++ ": " ++ text

/-- The machine with its observer told of accesses, if it has one. -/
def tellObserver (machine : Machine) (accesses : List Access) : Machine :=
  { machine with observer := machine.observer.map fun observer => observer.tell accesses }

/-- Ends a step whose instruction was executed: moves the program counter to the target of the
branch or to the next instruction, and gives out the accesses on record. -/
def complete (machine : Machine) (notify : Bool) (instruction : Instruction)
    (target : Option Nat) : Except StepFault Snapshot × Machine :=
  let oldPc := machine.pc
  let newPc := Bits.wrap 64 (target.getD (oldPc + Instruction.byteLength) : Nat)
  let accesses := machine.core.accesses
  let machine :=
    { machine with pc := newPc, core := machine.core.withoutRecords, steps := machine.steps + 1 }
  let machine := if notify then machine.tellObserver accesses else machine
  match machine.symbolInfo oldPc instruction with
  | .error defect => (.error (.ofDefect defect), machine)
  | .ok info => (.ok ⟨oldPc, newPc, instruction, machine.steps, info, accesses⟩, machine)

/-- Executes an instruction that was fetched. A fault leaves the program counter and the number
of steps as they were. -/
def executeFetched (machine : Machine) (notify : Bool) (instruction : Instruction) :
    Except StepFault Snapshot × Machine :=
  match (machine.core.track notify).execute instruction with
  | (.error fault, core) => (.error (.ofExecution fault), { machine with core := core.track false })
  | (.ok target, core) =>
    { machine with core := core.track false }.complete notify instruction target

/-- Executes the instruction at the program counter. Accesses are recorded, and the observer is
told of them, if the step notifies. -/
def step (machine : Machine) (notify : Bool) : Except StepFault Snapshot × Machine :=
  let machine := { machine with core := machine.core.withoutRecords }
  match machine.fetch with
  | .error fault => (.error fault, machine)
  | .ok (instruction, machine) => machine.executeFetched notify instruction

end Machine

end A64Machine
