import A64Machine.Branch
import A64Machine.DataProcessing
import A64Machine.Transfer

/-!
# Execution of instructions

Every operation of the instruction set has its execution. An instruction answers the target of a
branch that it takes.
-/

namespace A64Machine

namespace Execution

/-- An execution that never branches. -/
def sequential (steps : Execution Unit) : Execution (Option Nat) := do
  steps
  return none

/-- The execution of the instruction's operation. -/
def perform (instruction : Instruction) : Execution (Option Nat) :=
  match instruction.form.op with
  | .addSubExtended => sequential (DataProcessing.addSubExtended instruction)
  | .addSubShifted => sequential (DataProcessing.addSubShifted instruction)
  | .addSubImmediate => sequential (DataProcessing.addSubImmediate instruction)
  | .addSubCarry => sequential (DataProcessing.addSubCarry instruction)
  | .logicShifted => sequential (DataProcessing.logicShifted instruction)
  | .logicImmediate => sequential (DataProcessing.logicImmediate instruction)
  | .moveWide => sequential (DataProcessing.moveWide instruction)
  | .bitfield => sequential (DataProcessing.bitfield instruction)
  | .extract => sequential (DataProcessing.extract instruction)
  | .oneSource => sequential (DataProcessing.oneSource instruction)
  | .twoSource => sequential (DataProcessing.twoSource instruction)
  | .threeSource => sequential (DataProcessing.threeSource instruction)
  | .pcRelative => sequential (DataProcessing.pcRelative instruction)
  | .branchImmediate => Branch.immediate instruction
  | .branchConditional => Branch.conditional instruction
  | .compareBranch => Branch.compare instruction
  | .testBranch => Branch.test instruction
  | .branchRegister => Branch.register instruction
  | .hint => return none
  | .exception => return none
  | .transferScaled => sequential (Transfer.scaled instruction)
  | .transferNear => sequential (Transfer.near instruction)
  | .transferIndexed => sequential (Transfer.indexed instruction)
  | .transferLiteral => sequential (Transfer.literal instruction)
  | .transferPair => sequential (Transfer.pair instruction)
  | .other name => throw (.unknownOperation name)

end Execution

namespace CoreState

/-- Executes an instruction: the target of a branch that is taken or the fault, and the state
that it leaves. -/
def execute (state : CoreState) (instruction : Instruction) :
    Except ExecutionFault (Option Nat) × CoreState :=
  match Execution.perform instruction state with
  | .ok target state => (.ok target, state)
  | .error fault state => (.error fault, state)

end CoreState

end A64Machine
